import ShaderReflection.Proofs.Json.Scalars
import ShaderReflection.Proofs.OrderedMap.Entries

/-! Documents are read back from the text that is written for them, if no object in them names a
member twice. That text is ASCII.
-/

namespace ShaderReflection.Json

open Text

-----------------------------------------------------------------------------------------
-- Elements with commas between them
-----------------------------------------------------------------------------------------

variable {α : Type}

/-- Elements on lines of their own, with commas between them. -/
def separated (depth : Nat) (text : α → List Char) : List α → List Char
  | [] => []
  | [x] => newLine depth ++ text x
  | x :: next :: rest => newLine depth ++ text x ++ ',' :: separated depth text (next :: rest)

/-- A member of an object. -/
def writeMember (depth : Nat) (member : String × Value) : List Char :=
  writeString member.1 ++ ':' :: ' ' :: write depth member.2

theorem writeItems_eq_separated (depth : Nat) (items : List Value)
    : writeItems depth items = separated depth (write depth) items := by
  induction items with
  | nil => rfl
  | cons item rest ih =>
      cases rest with
      | nil => rfl
      | cons next more => rw [writeItems, ih, separated]

theorem writeMembers_eq_separated (depth : Nat) (members : List (String × Value))
    : writeMembers depth members = separated depth (writeMember depth) members := by
  induction members with
  | nil => rfl
  | cons member rest ih =>
      obtain ⟨name, value⟩ := member
      cases rest with
      | nil => simp [writeMembers, separated, writeMember]
      | cons next more => simp [writeMembers, ih, separated, writeMember]

/-- The first element stands behind a line break. -/
theorem separated_cons (depth : Nat) (text : α → List Char) (x : α) (others : List α)
    : ∃ behind, separated depth text (x :: others) = newLine depth ++ (text x ++ behind) := by
  cases others with
  | nil => exact ⟨[], by rw [separated, List.append_nil]⟩
  | cons next more => exact ⟨_, by rw [separated, List.append_assoc]⟩

theorem length_le_separated (depth : Nat) (text : α → List Char) (xs : List α)
    : xs.length ≤ (separated depth text xs).length
      ∧ ∀ x ∈ xs, (text x).length ≤ (separated depth text xs).length := by
  induction xs with
  | nil => simp
  | cons x rest ih =>
      cases rest with
      | nil =>
          simp only [separated, newLine, List.length_append, List.length_cons, List.length_nil,
            List.length_replicate, List.mem_singleton, forall_eq]
          omega
      | cons next more =>
          obtain ⟨count, each⟩ := ih
          simp only [separated, newLine, List.length_append, List.length_cons,
            List.length_replicate] at count ⊢
          refine ⟨by omega, ?_⟩
          intro y member
          rcases List.mem_cons.mp member with rfl | later
          · omega
          · have below := each y later
            omega

theorem mem_separated {depth : Nat} {text : α → List Char} {xs : List α} {c : Char}
    (member : c ∈ separated depth text xs)
    : c ∈ newLine depth ∨ c = ',' ∨ ∃ x ∈ xs, c ∈ text x := by
  induction xs with
  | nil => cases member
  | cons x rest ih =>
      cases rest with
      | nil =>
          rcases List.mem_append.mp member with lead | own
          · exact Or.inl lead
          · exact Or.inr (Or.inr ⟨x, List.mem_cons_self, own⟩)
      | cons next more =>
          rw [separated, List.append_assoc, List.mem_append, List.mem_append, List.mem_cons]
            at member
          rcases member with lead | own | comma | later
          · exact Or.inl lead
          · exact Or.inr (Or.inr ⟨x, List.mem_cons_self, own⟩)
          · exact Or.inr (Or.inl comma)
          · rcases ih later with lead | comma | ⟨y, among, own⟩
            · exact Or.inl lead
            · exact Or.inr (Or.inl comma)
            · exact Or.inr (Or.inr ⟨y, List.mem_cons_of_mem x among, own⟩)

/-- A text starts with a character that is neither whitespace nor the given mark. -/
def StartsBefore (close : Char) (cs : List Char) : Prop :=
  ∃ c rest, cs = c :: rest ∧ isWhitespace c = false ∧ c ≠ close

theorem isWhitespace_newLine (depth : Nat) : ∀ c ∈ newLine depth, isWhitespace c = true := by
  intro c member
  rcases List.mem_cons.mp member with rfl | blank
  · rfl
  · rw [List.eq_of_mem_replicate blank]
    rfl

theorem skipWhitespace_visible {c : Char} (visible : isWhitespace c = false) (rest : List Char)
    : skipWhitespace (c :: rest) = c :: rest := by
  simp [skipWhitespace, visible]

theorem skipWhitespace_append {blanks : List Char} (blank : ∀ c ∈ blanks, isWhitespace c = true)
    (rest : List Char)
    : skipWhitespace (blanks ++ rest) = skipWhitespace rest :=
  List.dropWhile_append_of_pos blank

/-- A line break ends a number. -/
theorem stops_newLine (depth : Nat) (rest : List Char) : Stops (newLine depth ++ rest) :=
  .of_cons (by decide) (by decide) (by decide) _

/-- Elements that can each be read are read one after another, by induction along them. -/
theorem readSeparated_separated {element : List Char → Option (α × List Char)} {close : Char}
    {text : α → List Char} {inner outer count : Nat} {xs : List α} {rest : List Char}
    (mark : close ≠ ',' ∧ isWhitespace close = false) (nonempty : xs ≠ [])
    (starts : ∀ x ∈ xs, StartsBefore close (text x))
    (reads : ∀ x ∈ xs, ∀ rest, Stops rest → element (text x ++ rest) = some (x, rest))
    (room : xs.length ≤ count)
    : readSeparated element close count
          (separated inner text xs ++ (newLine outer ++ close :: rest))
        = some (xs, rest) := by
  have closing : skipWhitespace (newLine outer ++ close :: rest) = close :: rest := by
    rw [skipWhitespace_append (isWhitespace_newLine outer), skipWhitespace_visible mark.2]
  induction xs generalizing count with
  | nil => exact absurd rfl nonempty
  | cons x others ih =>
      obtain ⟨c, more, start, visible, _⟩ := starts x List.mem_cons_self
      have skip (behind : List Char)
          : skipWhitespace (newLine inner ++ (text x ++ behind)) = text x ++ behind := by
        rw [skipWhitespace_append (isWhitespace_newLine inner), start, List.cons_append,
          skipWhitespace_visible visible]
      obtain ⟨fewer, rfl⟩ : ∃ fewer, count = fewer + 1 :=
        Nat.exists_eq_succ_of_ne_zero (by rw [List.length_cons] at room; omega)
      cases others with
      | nil =>
          rw [separated, List.append_assoc, readSeparated, skip,
            reads x List.mem_cons_self _ (stops_newLine outer _)]
          simp only [closing, if_true]
      | cons next last =>
          have comma (behind : List Char) : skipWhitespace (',' :: behind) = ',' :: behind :=
            skipWhitespace_visible (by decide) behind
          have fewerRoom : (next :: last).length ≤ fewer := by simpa using room
          have later := ih (List.cons_ne_nil next last)
            (fun y member => starts y (List.mem_cons_of_mem x member))
            (fun y member => reads y (List.mem_cons_of_mem x member)) fewerRoom
          rw [separated, List.append_assoc, List.append_assoc, List.cons_append, readSeparated, skip,
            reads x List.mem_cons_self _ (.of_cons (by decide) (by decide) (by decide) _)]
          simp only [comma, mark.1.symm, if_false, if_true, later, Option.map_some]

/-- Elements that can each be read are read between marks, if there are any. -/
theorem readEnclosed_separated {element : List Char → Option (α × List Char)} (close : Char)
    (text : α → List Char) (inner outer : Nat) {xs : List α} (rest : List Char)
    (mark : close ≠ ',' ∧ isWhitespace close = false) (nonempty : xs ≠ [])
    (starts : ∀ x ∈ xs, StartsBefore close (text x))
    (reads : ∀ x ∈ xs, ∀ rest, Stops rest → element (text x ++ rest) = some (x, rest))
    : readEnclosed element close (separated inner text xs ++ (newLine outer ++ close :: rest))
      = some (xs, rest) := by
  have first
      : ∃ c more,
          skipWhitespace (separated inner text xs ++ (newLine outer ++ close :: rest)) = c :: more
          ∧ c ≠ close := by
    obtain ⟨x, others, rfl⟩ := List.exists_cons_of_ne_nil nonempty
    obtain ⟨c, more, start, visible, different⟩ := starts x List.mem_cons_self
    obtain ⟨behind, written⟩ := separated_cons inner text x others
    rw [written, start, List.append_assoc, skipWhitespace_append (isWhitespace_newLine inner),
      List.cons_append, List.cons_append, skipWhitespace_visible visible]
    exact ⟨c, _, rfl, different⟩
  obtain ⟨c, more, skipped, different⟩ := first
  have room := (length_le_separated inner text xs).1
  rw [readEnclosed, skipped]
  simp only [different, if_false]
  exact readSeparated_separated mark nonempty starts reads (by rw [List.length_append]; omega)

-----------------------------------------------------------------------------------------
-- Documents
-----------------------------------------------------------------------------------------

/-- No object of a document has two members of one name. -/
inductive Value.UniqueNames : Value → Prop
  | null : UniqueNames .null
  | bool (b : Bool) : UniqueNames (.bool b)
  | int (n : Int) : UniqueNames (.int n)
  | string (s : String) : UniqueNames (.string s)
  | array {items : List Value} (each : ∀ item ∈ items, item.UniqueNames)
    : UniqueNames (.array items)
  | object {members : List (String × Value)} (names : (members.map Prod.fst).Nodup)
    (each : ∀ member ∈ members, member.2.UniqueNames)
    : UniqueNames (.object members)

/-- A written value starts with a character that neither whitespace nor a closing mark is. -/
theorem write_startsBefore (depth : Nat) (v : Value) {close : Char}
    (mark : close = ']' ∨ close = '}')
    : StartsBefore close (write depth v) := by
  have start {c : Char} {rest : List Char} (visible : isWhitespace c = false)
      (opens : c ≠ ']' ∧ c ≠ '}')
      : StartsBefore close (c :: rest) := by
    refine ⟨c, rest, rfl, visible, ?_⟩
    rcases mark with rfl | rfl
    · exact opens.1
    · exact opens.2
  cases v with
  | null => exact start (by decide) (by decide)
  | bool b => cases b <;> exact start (by decide) (by decide)
  | int n =>
      obtain ⟨c, rest, written⟩ := List.exists_cons_of_ne_nil (toString_ne_nil n)
      have other {d : Char} := @ne_of_written n c d rest written
      rw [write, written]
      exact start (by simp [isWhitespace, other])
        ⟨other (by decide) (by decide), other (by decide) (by decide)⟩
  | string s => exact start (by decide) (by decide)
  | array items => cases items <;> exact start (by decide) (by decide)
  | object members => cases members <;> exact start (by decide) (by decide)

/-- A member is read back if its value is. -/
theorem readMember_writeMember {value : List Char → Option (Value × List Char)} {depth : Nat}
    {member : String × Value} {rest : List Char}
    (reads : value (write depth member.2 ++ rest) = some (member.2, rest))
    : readMember value (writeMember depth member ++ rest) = some (member, rest) := by
  obtain ⟨name, v⟩ := member
  obtain ⟨c, more, start, visible, _⟩ := write_startsBefore depth v (Or.inl rfl)
  have skip : skipWhitespace (' ' :: (write depth v ++ rest)) = write depth v ++ rest := by
    rw [← List.singleton_append, skipWhitespace_append (by simp [isWhitespace]), start,
      List.cons_append, skipWhitespace_visible visible]
  have colon (behind : List Char) : skipWhitespace (':' :: behind) = ':' :: behind :=
    skipWhitespace_visible (by decide) behind
  simp only [writeMember, writeString, List.cons_append, List.append_assoc, List.nil_append,
    readMember, readString_writeString, colon, skip, reads, Option.map_some]

theorem exists_room {depth room : Nat} {v : Value} (fits : (write depth v).length ≤ room)
    : ∃ less, room = less + 1 := by
  obtain ⟨c, more, start, _, _⟩ := write_startsBefore depth v (Or.inl rfl)
  rw [start, List.length_cons] at fits
  exact Nat.exists_eq_succ_of_ne_zero (by omega)

/-- What is nested in a value is shorter than it. -/
theorem length_lt_array (depth : Nat) {items : List Value} {item : Value} (member : item ∈ items)
    : (write (depth + 1) item).length < (write depth (.array items)).length := by
  have shorter := (length_le_separated (depth + 1) (write (depth + 1)) items).2 item member
  cases items with
  | nil => cases member
  | cons first others =>
      simp only [write, writeItems_eq_separated, List.cons_append, List.length_cons,
        List.length_append]
      omega

theorem length_lt_object (depth : Nat) {members : List (String × Value)} {entry : String × Value}
    (member : entry ∈ members)
    : (write (depth + 1) entry.2).length < (write depth (.object members)).length := by
  have shorter :=
    (length_le_separated (depth + 1) (writeMember (depth + 1)) members).2 entry member
  cases members with
  | nil => cases member
  | cons first others =>
      simp only [write, writeMembers_eq_separated, writeMember, List.cons_append, List.length_cons,
        List.length_append] at shorter ⊢
      omega

/-- An array is read back if its items are. -/
theorem readValue_array {depth less : Nat} {items : List Value}
    (reads
      : ∀ item ∈ items, ∀ rest, Stops rest
          → readValue less (write (depth + 1) item ++ rest) = some (item, rest))
    (rest : List Char)
    : readValue (less + 1) (write depth (.array items) ++ rest) = some (.array items, rest) := by
  cases items with
  | nil => simp [write, readValue, readEnclosed, skipWhitespace, isWhitespace]
  | cons first others =>
      have enclosed :=
        readEnclosed_separated ']' (write (depth + 1)) (depth + 1) depth rest (by decide)
          (List.cons_ne_nil first others)
          (fun item _ => write_startsBefore (depth + 1) item (Or.inl rfl)) reads
      simp only [write, writeItems_eq_separated, List.cons_append, List.append_assoc,
        List.nil_append, readValue, enclosed, Option.map_some]

/-- An object without a repeated name is read back if the values of its members are. -/
theorem readValue_object {depth less : Nat} {members : List (String × Value)}
    (names : (members.map Prod.fst).Nodup)
    (reads
      : ∀ member ∈ members, ∀ rest, Stops rest
          → readValue less (write (depth + 1) member.2 ++ rest) = some (member.2, rest))
    (rest : List Char)
    : readValue (less + 1) (write depth (.object members) ++ rest)
      = some (.object members, rest) := by
  have same : objectOf members = .object members := by
    rw [objectOf, OrderedMap.entries_ofList members names]
  cases members with
  | nil => simp [write, readValue, readEnclosed, skipWhitespace, isWhitespace, same]
  | cons first others =>
      have enclosed :=
        readEnclosed_separated '}' (writeMember (depth + 1)) (depth + 1) depth rest (by decide)
          (List.cons_ne_nil first others)
          (fun member _ => ⟨'"', _, rfl, by decide, by decide⟩)
          (fun member among behind ends => readMember_writeMember (reads member among behind ends))
      simp only [write, writeMembers_eq_separated, List.cons_append, List.append_assoc,
        List.nil_append, readValue, enclosed, Option.map_some, same]

/-- A written document is read back, whatever follows it that is no part of a number. By induction
along the document.
-/
theorem readValue_write {v : Value} (unique : v.UniqueNames) {depth room : Nat} {rest : List Char}
    (fits : (write depth v).length ≤ room) (stops : Stops rest)
    : readValue room (write depth v ++ rest) = some (v, rest) := by
  induction unique generalizing depth room rest with
  | null =>
      obtain ⟨less, rfl⟩ := exists_room fits
      rfl
  | bool b =>
      obtain ⟨less, rfl⟩ := exists_room fits
      cases b <;> rfl
  | int n =>
      obtain ⟨less, rfl⟩ := exists_room fits
      have read := readPlain_toString n stops
      obtain ⟨c, more, written⟩ := List.exists_cons_of_ne_nil (toString_ne_nil n)
      rw [write]
      rw [written, List.cons_append] at read ⊢
      rw [readValue]
      · exact read
      all_goals
        intro behind start
        exact absurd (List.cons.inj start).1 (ne_of_written written (by decide) (by decide))
  | string s =>
      obtain ⟨less, rfl⟩ := exists_room fits
      simp only [write, writeString, List.cons_append, List.append_assoc, List.nil_append, readValue,
        readString_writeString, Option.map_some]
  | array each ih =>
      obtain ⟨less, rfl⟩ := exists_room fits
      refine readValue_array (fun item member behind ends => ih item member ?_ ends) rest
      have shorter := length_lt_array depth member
      omega
  | object names each ih =>
      obtain ⟨less, rfl⟩ := exists_room fits
      refine readValue_object names (fun entry member behind ends => ih entry member ?_ ends) rest
      have shorter := length_lt_object depth member
      omega

/-- The text of a document holds that document, with any whitespace behind it. -/
theorem decode?_write {v : Value} (unique : v.UniqueNames) (blanks : List Char)
    (blank : ∀ c ∈ blanks, isWhitespace c = true)
    : decode? (String.ofList (write 0 v ++ blanks)) = some v := by
  have stops : Stops blanks := by
    intro c first
    have white := blank c (List.mem_of_mem_head? first)
    simp only [isWhitespace, Bool.or_eq_true, beq_iff_eq] at white
    rcases white with ((rfl | rfl) | rfl) | rfl <;> decide
  have skipped : skipWhitespace (write 0 v ++ blanks) = write 0 v ++ blanks := by
    obtain ⟨c, rest, start, visible, _⟩ := write_startsBefore 0 v (Or.inl rfl)
    rw [start, List.cons_append, skipWhitespace_visible visible]
  have ended : skipWhitespace blanks = [] := by
    rw [← List.append_nil blanks, skipWhitespace_append blank]
    rfl
  have fits : (write 0 v).length ≤ (String.ofList (write 0 v ++ blanks)).length := by
    rw [String.length_ofList, List.length_append]
    omega
  have read := readValue_write unique fits stops
  simp only [decode?, String.toList_ofList, skipped, read, ended, List.isEmpty_nil, if_true]

theorem getLast?_write_object (depth : Nat) (members : List (String × Value))
    : (write depth (.object members)).getLast? = some '}' := by
  cases members with
  | nil => rfl
  | cons first others => rw [write, List.getLast?_concat]

-----------------------------------------------------------------------------------------
-- Only ASCII is written
-----------------------------------------------------------------------------------------

theorem ascii_of_isWhitespace {c : Char} (white : isWhitespace c = true) : c.toNat < 128 := by
  simp only [isWhitespace, Bool.or_eq_true, beq_iff_eq] at white
  rcases white with ((rfl | rfl) | rfl) | rfl <;> decide

/-- Only ASCII is written for elements between marks if only ASCII is written for each. -/
theorem enclosed_ascii {inner outer : Nat} {text : α → List Char} {xs : List α}
    {opening closing : Char} (marks : opening.toNat < 128 ∧ closing.toNat < 128)
    (each : ∀ x ∈ xs, ∀ c ∈ text x, c.toNat < 128)
    : ∀ c ∈ opening :: separated inner text xs ++ newLine outer ++ [closing], c.toNat < 128 := by
  intro c member
  have white {depth : Nat} (lead : c ∈ newLine depth) : c.toNat < 128 :=
    ascii_of_isWhitespace (isWhitespace_newLine depth c lead)
  simp only [List.cons_append, List.append_assoc, List.mem_cons, List.mem_append, List.not_mem_nil,
    or_false] at member
  rcases member with rfl | elements | lead | rfl
  · exact marks.1
  · rcases mem_separated elements with lead | rfl | ⟨x, among, own⟩
    · exact white lead
    · decide
    · exact each x among c own
  · exact white lead
  · exact marks.2

/-- Only ASCII is written, by induction along the document. -/
theorem write_ascii {v : Value} (unique : v.UniqueNames) (depth : Nat)
    : ∀ c ∈ write depth v, c.toNat < 128 := by
  induction unique generalizing depth with
  | null => simp [write]
  | bool b => cases b <;> simp [write]
  | int n =>
      intro c member
      rcases mem_toString member with rfl | digit
      · decide
      · have bounds := toNat_of_isDigit digit
        omega
  | string s => exact writeString_ascii s
  | @array items each ih =>
      cases items with
      | nil => simp [write]
      | cons first others =>
          rw [write, writeItems_eq_separated]
          exact enclosed_ascii (by decide) fun item member => ih item member (depth + 1)
  | @object members names each ih =>
      cases members with
      | nil => simp [write]
      | cons first others =>
          rw [write, writeMembers_eq_separated]
          refine enclosed_ascii (by decide) ?_
          intro entry among c member
          simp only [writeMember, List.mem_append, List.mem_cons] at member
          rcases member with name | rfl | rfl | value
          · exact writeString_ascii entry.1 c name
          · decide
          · decide
          · exact ih entry among (depth + 1) c value

end ShaderReflection.Json
