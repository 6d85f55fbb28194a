/-
  WebBaseline.Proofs.Json.RoundTrip

  A value that is printed is read back.

    * a `Layout` says which blanks stand between the parts of a value; the
      compact and the pretty printer are two layouts;
    * a value is `exact` if its text says all there is to it: it holds no number
      with a fraction, no integer beyond 64 bits and no broken text;
    * `value_chars` reads an exact value in any layout, whatever follows it.
-/

import WebBaseline.Proofs.Json.Scalars

namespace WebBaseline.Json

/-! ## Layouts -/

/-- The blanks between the parts of a value. -/
structure Layout where
  /-- What stands before an item, a member or a closing bracket at a depth. -/
  line : Nat → List Char
  /-- What stands before the value of a member. -/
  gap : List Char
  line_blank : ∀ depth, ∀ c ∈ line depth, isBlank c = true
  gap_blank : ∀ c ∈ gap, isBlank c = true

namespace Layout

/-- The layout on one line. -/
def compact : Layout where
  line _ := []
  gap := []
  line_blank := by simp
  gap_blank := by simp

/-- The layout over many lines. -/
def pretty : Layout where
  line := Value.newline
  gap := [' ']
  line_blank := by
    intro depth c hc
    rcases List.mem_cons.1 hc with rfl | hc
    · rfl
    · rw [List.eq_of_mem_replicate hc]
      rfl
  gap_blank := by
    intro c hc
    rw [List.mem_singleton.1 hc]
    rfl

mutual

/-- A value in a layout, at a depth. -/
def chars (l : Layout) (depth : Nat) : Value → List Char
  | .null => "null".toList
  | .bool true => "true".toList
  | .bool false => "false".toList
  | .int n => Decimal.intChars n
  | .real s => s.toList
  | .str s => quoteChars s.toList
  | .unpaired => quoteChars ['\ufffd']
  | .arr [] => ['[', ']']
  | .arr (v :: vs) =>
    '[' :: (l.line (depth + 1) ++ (l.chars (depth + 1) v ++ l.items depth vs))
  | .obj [] => ['\x7b', '\x7d']
  | .obj ((k, v) :: ms) =>
    '\x7b' :: (l.line (depth + 1) ++ (quoteChars k.toList ++ ':' :: (l.gap ++
      (l.chars (depth + 1) v ++ l.members depth ms))))

/-- Further items of an array at a depth and its closing bracket. -/
def items (l : Layout) (depth : Nat) : List Value → List Char
  | [] => l.line depth ++ [']']
  | v :: vs => ',' :: (l.line (depth + 1) ++ (l.chars (depth + 1) v ++ l.items depth vs))

/-- Further members of an object at a depth and its closing brace. -/
def members (l : Layout) (depth : Nat) : List (String × Value) → List Char
  | [] => l.line depth ++ ['\x7d']
  | (k, v) :: ms =>
    ',' :: (l.line (depth + 1) ++ (quoteChars k.toList ++ ':' :: (l.gap ++
      (l.chars (depth + 1) v ++ l.members depth ms))))

end

mutual

theorem compact_chars (depth : Nat) (v : Value) : compact.chars depth v = v.compactChars := by
  cases v with
  | arr vs =>
    cases vs with
    | nil => rw [chars, Value.compactChars]
    | cons v vs =>
      rw [chars, Value.compactChars, compact_chars (depth + 1) v, compact_items depth vs]
      rfl
  | obj ms =>
    cases ms with
    | nil => rw [chars, Value.compactChars]
    | cons m ms =>
      obtain ⟨k, v⟩ := m
      rw [chars, Value.compactChars, compact_chars (depth + 1) v, compact_members depth ms]
      rfl
  | bool b => cases b <;> rw [chars, Value.compactChars]
  | _ => rw [chars, Value.compactChars]

theorem compact_items (depth : Nat) (vs : List Value) :
    compact.items depth vs = Value.compactItems vs := by
  cases vs with
  | nil =>
    rw [items, Value.compactItems]
    rfl
  | cons v vs =>
    rw [items, Value.compactItems, compact_chars (depth + 1) v, compact_items depth vs]
    rfl

theorem compact_members (depth : Nat) (ms : List (String × Value)) :
    compact.members depth ms = Value.compactMembers ms := by
  cases ms with
  | nil =>
    rw [members, Value.compactMembers]
    rfl
  | cons m ms =>
    obtain ⟨k, v⟩ := m
    rw [members, Value.compactMembers, compact_chars (depth + 1) v, compact_members depth ms]
    rfl

end

mutual

theorem pretty_chars (depth : Nat) (v : Value) :
    pretty.chars depth v = v.prettyChars depth := by
  cases v with
  | arr vs =>
    cases vs with
    | nil => rw [chars, Value.prettyChars]
    | cons v vs =>
      rw [chars, Value.prettyChars, pretty_chars (depth + 1) v, pretty_items depth vs,
        List.append_assoc]
      rfl
  | obj ms =>
    cases ms with
    | nil => rw [chars, Value.prettyChars]
    | cons m ms =>
      obtain ⟨k, v⟩ := m
      rw [chars, Value.prettyChars, pretty_chars (depth + 1) v, pretty_members depth ms,
        List.append_assoc]
      rfl
  | bool b => cases b <;> rw [chars, Value.prettyChars]
  | _ => rw [chars, Value.prettyChars]

theorem pretty_items (depth : Nat) (vs : List Value) :
    pretty.items depth vs = Value.prettyItems depth vs := by
  cases vs with
  | nil =>
    rw [items, Value.prettyItems]
    rfl
  | cons v vs =>
    rw [items, Value.prettyItems, pretty_chars (depth + 1) v, pretty_items depth vs,
      List.append_assoc]
    rfl

theorem pretty_members (depth : Nat) (ms : List (String × Value)) :
    pretty.members depth ms = Value.prettyMembers depth ms := by
  cases ms with
  | nil =>
    rw [members, Value.prettyMembers]
    rfl
  | cons m ms =>
    obtain ⟨k, v⟩ := m
    rw [members, Value.prettyMembers, pretty_chars (depth + 1) v, pretty_members depth ms,
      List.append_assoc]
    rfl

end

end Layout

/-! ## Values that a text says in full -/

namespace Value

mutual

/-- Whether a value is what is read back from its text. -/
def exact : Value → Bool
  | real _ => false
  | unpaired => false
  | int n => decide (minInt ≤ n) && decide (n ≤ maxInt)
  | arr items => exactItems items
  | obj members => exactMembers members
  | _ => true

/-- The same for the items of an array. -/
def exactItems : List Value → Bool
  | [] => true
  | v :: vs => exact v && exactItems vs

/-- The same for the members of an object. -/
def exactMembers : List (String × Value) → Bool
  | [] => true
  | (_, v) :: ms => exact v && exactMembers ms

end

end Value

/-! ## Reading a value in a layout -/

theorem skipBlanks_append {blanks : List Char} (h : ∀ c ∈ blanks, isBlank c = true)
    (cs : List Char) : skipBlanks (blanks ++ cs) = skipBlanks cs :=
  List.dropWhile_append_of_pos h

/-- Blanks before a value do not matter. -/
theorem value_skip {blanks : List Char} (h : ∀ c ∈ blanks, isBlank c = true) (fuel : Nat)
    (cs : List Char) : value fuel (blanks ++ cs) = value fuel cs := by
  cases fuel with
  | zero => rw [value, value]
  | succ fuel => rw [value, value, skipBlanks_append h]

theorem itemsFrom_skip {blanks : List Char} (h : ∀ c ∈ blanks, isBlank c = true) (fuel : Nat)
    (cs : List Char) : itemsFrom fuel (blanks ++ cs) = itemsFrom fuel cs := by
  cases fuel with
  | zero => rw [itemsFrom, itemsFrom]
  | succ fuel => rw [itemsFrom, itemsFrom, value_skip h]

theorem membersFrom_skip {blanks : List Char} (h : ∀ c ∈ blanks, isBlank c = true) (fuel : Nat)
    (cs : List Char) : membersFrom fuel (blanks ++ cs) = membersFrom fuel cs := by
  cases fuel with
  | zero => rw [membersFrom, membersFrom]
  | succ fuel => rw [membersFrom, membersFrom, skipBlanks_append h]

theorem skipBlanks_cons {c : Char} (h : isBlank c = false) (cs : List Char) :
    skipBlanks (c :: cs) = c :: cs := by
  rw [skipBlanks, List.dropWhile_cons, h]
  rfl

theorem value_of_isDigit {c : Char} (h : c.isDigit = true) (fuel : Nat) (cs : List Char) :
    value (fuel + 1) (c :: cs) = unsignedNumber false (c :: cs) := by
  have hblank : isBlank c = false := by
    rw [isBlank]
    simp only [Bool.or_eq_false_iff, beq_eq_false_iff_ne]
    refine ⟨⟨⟨?_, ?_⟩, ?_⟩, ?_⟩ <;> rintro rfl <;> cases h
  rw [value, skipBlanks_cons hblank]
  -- every other case is one of a sign or a letter
  split
  · next heq => cases heq
  all_goals first
    | rfl
    | next heq =>
      obtain ⟨rfl, -⟩ := List.cons.inj heq
      cases h

/-- Digits of a number within bounds are that number, unless they are a zero with
    a sign. -/
theorem wholeValue_eq_int {negative : Bool} {ds : List Char} {i : Int}
    (hsign : (negative && Decimal.ofDigits ds == 0) = false)
    (hi : (if negative then -(Decimal.ofDigits ds : Int) else Decimal.ofDigits ds) = i)
    (hmin : Value.minInt ≤ i) (hmax : i ≤ Value.maxInt) :
    wholeValue negative ds = .int i := by
  have hbelow : decide (i < Value.minInt) = false := decide_eq_false (Int.not_lt.2 hmin)
  have habove : decide (Value.maxInt < i) = false := decide_eq_false (Int.not_lt.2 hmax)
  rw [wholeValue]
  simp only [hi, hsign, hbelow, habove, Bool.or_self, Bool.false_eq_true, if_false]

/-- A whole number is read back. -/
theorem value_int {n : Int} (hmin : Value.minInt ≤ n) (hmax : n ≤ Value.maxInt) (fuel : Nat)
    {rest : List Char} (h : Ends rest) :
    value (fuel + 1) (Decimal.intChars n ++ rest) = some (.int n, rest) := by
  cases n with
  | ofNat n =>
    have hfirst := digits_ne_nil n
    have hdigit := Decimal.digits_isDigit n
    have hwhole : wholeValue false (Decimal.digits n) = .int (.ofNat n) := by
      refine wholeValue_eq_int rfl ?_ hmin hmax
      rw [Decimal.ofDigits_digits]
      rfl
    have hread := unsignedNumber_digits false n h
    rw [hwhole] at hread
    rw [Decimal.intChars]
    cases hcs : Decimal.digits n with
    | nil => exact absurd hcs hfirst
    | cons c cs =>
      rw [hcs] at hread hdigit
      rw [List.cons_append] at hread ⊢
      rw [value_of_isDigit (hdigit c List.mem_cons_self), hread]
  | negSucc n =>
    have hwhole : wholeValue true (Decimal.digits (n + 1)) = .int (.negSucc n) := by
      refine wholeValue_eq_int ?_ ?_ hmin hmax
      · rw [Decimal.ofDigits_digits]
        rfl
      · rw [Decimal.ofDigits_digits]
        rfl
    -- the sign goes first, and the digits are those of the rest
    rw [Decimal.intChars, List.cons_append, value, skipBlanks_cons rfl]
    simp only
    rw [unsignedNumber_digits true (n + 1) h, hwhole]

/-- A quoted text is read back. -/
theorem value_str (s : String) (fuel : Nat) (rest : List Char) :
    value (fuel + 1) (quoteChars s.toList ++ rest) = some (.str s, rest) := by
  rw [quoteChars, List.cons_append, List.append_assoc, value, skipBlanks_cons rfl]
  simp only [List.cons_append, List.nil_append]
  rw [textBody_quoted]
  simp [characters?_toNat]

/-- An opening bracket, if no closing one follows. -/
theorem value_bracket {blanks : List Char} (hblank : ∀ c ∈ blanks, isBlank c = true) {c : Char}
    (hc : isBlank c = false) (hclose : c ≠ ']') (fuel : Nat) (cs : List Char) :
    value (fuel + 1) ('[' :: (blanks ++ c :: cs)) =
      (itemsFrom fuel (blanks ++ c :: cs)).map (fun r => (.arr r.1, r.2)) := by
  rw [value, skipBlanks_cons rfl, itemsFrom_skip hblank]
  simp only
  rw [skipBlanks_append hblank, skipBlanks_cons hc]
  split
  · next h => exact absurd (List.cons.inj h).1 hclose
  · rfl

/-- An opening brace before a quoted name. -/
theorem value_brace {blanks : List Char} (hblank : ∀ c ∈ blanks, isBlank c = true)
    (fuel : Nat) (k cs : List Char) :
    value (fuel + 1) ('\x7b' :: (blanks ++ (quoteChars k ++ cs))) =
      (membersFrom fuel (blanks ++ (quoteChars k ++ cs))).map (fun r => (.obj r.1, r.2)) := by
  rw [value, skipBlanks_cons rfl, membersFrom_skip hblank]
  simp only
  rw [skipBlanks_append hblank, quoteChars, List.cons_append, skipBlanks_cons rfl]
  rfl

/-- What the sign behind the value of a member leads to. -/
def membersAfter (fuel : Nat) (k : String) (v : Value) :
    List Char → Option (List (String × Value) × List Char)
  | ',' :: rest => (membersFrom fuel rest).map (fun r => ((k, v) :: r.1, r.2))
  | '\x7d' :: rest => some ([(k, v)], rest)
  | _ => none

/-- The name and the value of a member are read one after the other. -/
theorem membersFrom_member (fuel : Nat) (k : String) (cs : List Char) {v : Value}
    {after : List Char} (hvalue : value fuel cs = some (v, after)) :
    membersFrom (fuel + 1) (quoteChars k.toList ++ ':' :: cs) =
      membersAfter fuel k v (skipBlanks after) := by
  rw [membersFrom, quoteChars, List.cons_append, skipBlanks_cons rfl]
  simp only
  rw [List.append_assoc, List.cons_append, List.nil_append, textBody_quoted]
  simp only [characters?_toNat]
  rw [skipBlanks_cons rfl]
  simp only [hvalue, String.ofList_toList]
  rfl

/-! ## Exact values -/

theorem isDigit_of_isBlank {c : Char} (h : isBlank c = true) :
    c.isDigit = false ∧ c ≠ '.' ∧ c ≠ 'e' ∧ c ≠ 'E' := by
  simp only [isBlank, Bool.or_eq_true, beq_iff_eq] at h
  rcases h with ((rfl | rfl) | rfl) | rfl <;> decide

/-- Blanks before a sign do not make a number longer. -/
theorem ends_blanks {blanks : List Char} (hblank : ∀ c ∈ blanks, isBlank c = true) {c : Char}
    (hc : c.isDigit = false ∧ c ≠ '.' ∧ c ≠ 'e' ∧ c ≠ 'E') (cs : List Char) :
    Ends (blanks ++ c :: cs) := by
  cases blanks with
  | nil => exact ends_cons hc cs
  | cons b bs => exact ends_cons (isDigit_of_isBlank (hblank b List.mem_cons_self)) _

namespace Layout

/-- The text of a value starts with no blank and no closing bracket. -/
theorem chars_eq_cons (l : Layout) (depth : Nat) {v : Value} (hv : v.exact = true) :
    ∃ c cs, l.chars depth v = c :: cs ∧ isBlank c = false ∧ c ≠ ']' := by
  cases v with
  | null => exact ⟨'n', _, by rw [chars]; rfl, rfl, by decide⟩
  | bool b =>
    cases b with
    | true => exact ⟨'t', _, by rw [chars]; rfl, rfl, by decide⟩
    | false => exact ⟨'f', _, by rw [chars]; rfl, rfl, by decide⟩
  | real s => cases hv
  | unpaired => cases hv
  | str s => exact ⟨'\x22', _, by rw [chars, quoteChars], rfl, by decide⟩
  | int n =>
    rw [chars]
    cases n with
    | ofNat n =>
      obtain ⟨c, cs, hcs⟩ := List.exists_cons_of_ne_nil (digits_ne_nil n)
      have hdigit : c.isDigit = true := Decimal.digits_isDigit n c (by simp [hcs])
      refine ⟨c, cs, hcs, ?_, ?_⟩
      · cases hblank : isBlank c with
        | false => rfl
        | true => simp [isDigit_of_isBlank hblank] at hdigit
      · rintro rfl
        cases hdigit
    | negSucc n => exact ⟨'-', _, rfl, rfl, by decide⟩
  | arr vs =>
    cases vs with
    | nil => exact ⟨'[', _, by rw [chars], rfl, by decide⟩
    | cons v vs => exact ⟨'[', _, by rw [chars], rfl, by decide⟩
  | obj ms =>
    cases ms with
    | nil => exact ⟨'\x7b', _, by rw [chars], rfl, by decide⟩
    | cons m ms => exact ⟨'\x7b', _, by rw [chars], rfl, by decide⟩

theorem ends_items (l : Layout) (depth : Nat) (vs : List Value) (rest : List Char) :
    Ends (l.items depth vs ++ rest) := by
  cases vs with
  | nil =>
    rw [items, List.append_assoc]
    exact ends_blanks (l.line_blank depth) (by decide) rest
  | cons v vs =>
    rw [items]
    exact ends_cons (by decide) _

theorem ends_members (l : Layout) (depth : Nat) (ms : List (String × Value)) (rest : List Char) :
    Ends (l.members depth ms ++ rest) := by
  cases ms with
  | nil =>
    rw [members, List.append_assoc]
    exact ends_blanks (l.line_blank depth) (by decide) rest
  | cons m ms =>
    rw [members]
    exact ends_cons (by decide) _

theorem items_pos (l : Layout) (depth : Nat) (vs : List Value) :
    0 < (l.items depth vs).length := by
  cases vs <;> simp [items]

theorem members_pos (l : Layout) (depth : Nat) (ms : List (String × Value)) :
    0 < (l.members depth ms).length := by
  cases ms <;> simp [members]

mutual

/-- An exact value is read back in any layout. -/
theorem value_chars (l : Layout) (depth : Nat) (v : Value) (hv : v.exact = true) (fuel : Nat)
    (hfuel : (l.chars depth v).length < fuel) {rest : List Char} (hrest : Ends rest) :
    value fuel (l.chars depth v ++ rest) = some (v, rest) := by
  obtain ⟨fuel, rfl⟩ : ∃ n, fuel = n + 1 := ⟨fuel - 1, by omega⟩
  cases v with
  | null =>
    rw [chars]
    rfl
  | bool b =>
    cases b with
    | true =>
      rw [chars]
      rfl
    | false =>
      rw [chars]
      rfl
  | real s => cases hv
  | unpaired => cases hv
  | str s =>
    rw [chars]
    exact value_str s fuel rest
  | int n =>
    rw [Value.exact, Bool.and_eq_true, decide_eq_true_eq, decide_eq_true_eq] at hv
    rw [chars]
    exact value_int hv.1 hv.2 fuel hrest
  | arr vs =>
    cases vs with
    | nil =>
      rw [chars]
      rfl
    | cons v vs =>
      rw [Value.exact, Value.exactItems, Bool.and_eq_true] at hv
      rw [chars, List.length_cons, List.length_append, List.length_append] at hfuel
      -- the bracket takes one step, and the list of items another one
      obtain ⟨fuel, rfl⟩ : ∃ n, fuel = n + 1 := ⟨fuel - 1, by omega⟩
      have hpos := l.items_pos depth vs
      have hread := value_chars l (depth + 1) v hv.1 fuel (by omega)
        (l.ends_items depth vs rest)
      have hitems := itemsFrom_items l depth vs hv.2 fuel (by omega)
        ((value_skip (l.line_blank (depth + 1)) fuel _).trans hread)
      obtain ⟨c, cs, hchars, hblank, hclose⟩ := l.chars_eq_cons (depth + 1) hv.1
      rw [chars, List.cons_append, List.append_assoc, List.append_assoc]
      rw [hchars, List.cons_append] at hitems ⊢
      rw [value_bracket (l.line_blank (depth + 1)) hblank hclose, hitems]
      rfl
  | obj ms =>
    cases ms with
    | nil =>
      rw [chars]
      rfl
    | cons m ms =>
      obtain ⟨k, v⟩ := m
      rw [Value.exact, Value.exactMembers, Bool.and_eq_true] at hv
      rw [chars] at hfuel
      simp only [List.length_cons, List.length_append] at hfuel
      -- the brace takes one step, and the list of members another one
      obtain ⟨fuel, rfl⟩ : ∃ n, fuel = n + 1 := ⟨fuel - 1, by omega⟩
      have hpos := l.members_pos depth ms
      have hread := value_chars l (depth + 1) v hv.1 fuel (by omega)
        (l.ends_members depth ms rest)
      have hmembers := membersFrom_members l depth ms hv.2 fuel (by omega) k
        ((value_skip l.gap_blank fuel _).trans hread)
      rw [chars, List.cons_append, List.append_assoc, List.append_assoc, List.cons_append,
        List.append_assoc, List.append_assoc, value_brace (l.line_blank (depth + 1)),
        membersFrom_skip (l.line_blank (depth + 1)), hmembers]
      rfl

/-- Behind an item that has been read the rest of an array is read. -/
theorem itemsFrom_items (l : Layout) (depth : Nat) (vs : List Value)
    (hvs : Value.exactItems vs = true) (fuel : Nat) (hfuel : (l.items depth vs).length ≤ fuel)
    {cs : List Char} {v : Value} {rest : List Char}
    (hread : value fuel cs = some (v, l.items depth vs ++ rest)) :
    itemsFrom (fuel + 1) cs = some (v :: vs, rest) := by
  rw [itemsFrom, hread]
  cases vs with
  | nil =>
    -- the closing bracket
    simp only
    rw [items, List.append_assoc, skipBlanks_append (l.line_blank depth), List.cons_append,
      skipBlanks_cons rfl]
    rfl
  | cons w ws =>
    -- a comma and the next item
    rw [Value.exactItems, Bool.and_eq_true] at hvs
    rw [items] at hfuel
    simp only [List.length_cons, List.length_append] at hfuel
    obtain ⟨fuel, rfl⟩ : ∃ n, fuel = n + 1 := ⟨fuel - 1, by omega⟩
    have hpos := l.items_pos depth ws
    have hnext := value_chars l (depth + 1) w hvs.1 fuel (by omega)
      (l.ends_items depth ws rest)
    have hitems := itemsFrom_items l depth ws hvs.2 fuel (by omega)
      ((value_skip (l.line_blank (depth + 1)) fuel _).trans hnext)
    simp only
    rw [items, List.cons_append, List.append_assoc, List.append_assoc, skipBlanks_cons rfl]
    simp only
    rw [hitems]
    rfl

/-- Behind the value of a member that has been read the rest of an object is
    read. -/
theorem membersFrom_members (l : Layout) (depth : Nat) (ms : List (String × Value))
    (hms : Value.exactMembers ms = true) (fuel : Nat) (hfuel : (l.members depth ms).length ≤ fuel)
    (k : String) {cs : List Char} {v : Value} {rest : List Char}
    (hread : value fuel cs = some (v, l.members depth ms ++ rest)) :
    membersFrom (fuel + 1) (quoteChars k.toList ++ ':' :: cs) = some ((k, v) :: ms, rest) := by
  rw [membersFrom_member fuel k cs hread]
  cases ms with
  | nil =>
    -- the closing brace
    rw [members, List.append_assoc, skipBlanks_append (l.line_blank depth), List.cons_append,
      skipBlanks_cons rfl]
    rfl
  | cons m ms =>
    obtain ⟨j, w⟩ := m
    -- a comma and the next member
    rw [Value.exactMembers, Bool.and_eq_true] at hms
    rw [members] at hfuel
    simp only [List.length_cons, List.length_append] at hfuel
    obtain ⟨fuel, rfl⟩ : ∃ n, fuel = n + 1 := ⟨fuel - 1, by omega⟩
    have hpos := l.members_pos depth ms
    have hnext := value_chars l (depth + 1) w hms.1 fuel (by omega)
      (l.ends_members depth ms rest)
    have hmembers := membersFrom_members l depth ms hms.2 fuel (by omega) j
      ((value_skip l.gap_blank fuel _).trans hnext)
    rw [members, List.cons_append, skipBlanks_cons rfl, membersAfter, List.append_assoc,
      List.append_assoc, List.cons_append, List.append_assoc, List.append_assoc,
      membersFrom_skip (l.line_blank (depth + 1)), hmembers]
    rfl

end

/-- The text of an exact value in any layout holds that value. -/
theorem parse_chars (l : Layout) {v : Value} (hv : v.exact = true) :
    parse (String.ofList (l.chars 0 v)) = some v := by
  have hread := value_chars l 0 v hv _ (Nat.lt_succ_self _) ends_nil
  rw [List.append_nil] at hread
  rw [parse, String.toList_ofList, hread]
  rfl

end Layout

/-- The compact text of an exact value holds that value. -/
theorem parse_compact {v : Value} (hv : v.exact = true) : parse v.compact = some v := by
  rw [Value.compact, ← Layout.compact_chars 0]
  exact Layout.compact.parse_chars hv

/-- The text of an exact value over many lines holds that value. -/
theorem parse_pretty {v : Value} (hv : v.exact = true) : parse v.pretty = some v := by
  rw [Value.pretty, ← Layout.pretty_chars 0]
  exact Layout.pretty.parse_chars hv

end WebBaseline.Json
