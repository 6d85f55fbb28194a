/-
  WebBaseline.Proofs.Json.Codec

  Types whose values are written as JSON and read back.

    * `Codec` says that reading undoes writing for all values that fit, and that
      only such values are read; there are codecs for numbers, truth values and
      lists, and records are codecs field by field (`Record.required_members`,
      `Record.optional_members`);
    * from that law alone the texts of values can be read and rewritten
      (`Codec.roundTrips`): `RoundTrips` is what callers of a type rely on.
-/

import WebBaseline.Proofs.Json.Record

namespace WebBaseline.Json

/-- Reading undoes writing for all values that fit, and only such values are
    read. What is written is exact and never null. -/
structure Codec {α : Type} (fits : α → Prop) (write : α → Value) (read : Value → Option α) :
    Prop where
  read_write : ∀ a, fits a → read (write a) = some a
  exact_write : ∀ a, fits a → (write a).exact = true
  write_ne_null : ∀ a, write a ≠ .null
  fits_of_read : ∀ v a, read v = some a → fits a

/-! ## Plain values -/

section Plain

variable {α : Type} {fits : α → Prop} {write : α → Value} {read : Value → Option α}

theorem Inverse.codec (h : Inverse write read) : Codec (fun _ => True) write read where
  read_write a _ := h.read_write a
  exact_write a _ := h.exact_write a
  write_ne_null := h.write_ne_null
  fits_of_read _ _ _ := trivial

/-- The value of a field that is always written. -/
theorem Codec.exact_some (h : Codec fits write read) {a : α} (ha : fits a) :
    ∀ v ∈ some (write a), v.exact = true := by
  intro v hv
  obtain rfl := Option.some.inj hv
  exact h.exact_write a ha

/-- The value of a field that is written only if it is there. -/
theorem Codec.exact_map (h : Codec fits write read) {o : Option α} (ho : ∀ a ∈ o, fits a) :
    ∀ v ∈ o.map write, v.exact = true := by
  intro v hv
  obtain ⟨a, ha, rfl⟩ := Option.map_eq_some_iff.1 hv
  exact h.exact_write a (ho a ha)

theorem codec_text : Codec (fun _ => True) Value.str Value.text? := inverse_text.codec

theorem codec_bool : Codec (fun _ => True) Value.bool Value.bool? where
  read_write _ _ := rfl
  exact_write b _ := by cases b <;> rfl
  write_ne_null _ := by simp
  fits_of_read _ _ _ := trivial

/-- Numbers below a bound of at most 64 bits. -/
theorem codec_natBelow {bound : Nat} (hbound : bound ≤ UInt64.size) :
    Codec (fun n : Nat => n < bound) (fun n : Nat => .int n) (Value.natBelow? bound) where
  read_write n hn := if_pos hn
  exact_write n hn := by
    have hmax : (n : Int) ≤ Value.maxInt := by
      have hsize : UInt64.size = 18446744073709551616 := rfl
      rw [Value.maxInt]
      omega
    have hmin : Value.minInt ≤ (n : Int) := by
      rw [Value.minInt]
      omega
    simp [Value.exact, hmin, hmax]
  write_ne_null _ := by simp
  fits_of_read v n h := by
    rw [Value.natBelow?.eq_def] at h
    split at h
    · next m =>
      split at h
      · next hm =>
        obtain rfl := Option.some.inj h
        exact hm
      · cases h
    · cases h

theorem codec_count : Codec (fun n : Nat => n < UInt64.size) (fun n : Nat => .int n)
    Value.count? := codec_natBelow (Nat.le_refl _)

/-- Lists, item by item. -/
theorem Codec.list (h : Codec fits write read) :
    Codec (fun as => ∀ a ∈ as, fits a) (fun as => .arr (as.map write)) (Value.list? read) where
  read_write as has := by
    show (as.map write).mapM read = some as
    induction as with
    | nil => rfl
    | cons a as ih =>
      obtain ⟨ha, hrest⟩ := List.forall_mem_cons.1 has
      rw [List.map_cons, List.mapM_cons, h.read_write a ha, ih hrest]
      rfl
  exact_write as has := by
    rw [Value.exact]
    induction as with
    | nil => rfl
    | cons a as ih =>
      obtain ⟨ha, hrest⟩ := List.forall_mem_cons.1 has
      rw [List.map_cons, Value.exactItems, h.exact_write a ha, ih hrest]
      rfl
  write_ne_null _ := by simp
  fits_of_read v as hread := by
    rw [Value.list?.eq_def] at hread
    split at hread
    · next items =>
      induction items generalizing as with
      | nil =>
        obtain rfl := Option.some.inj hread
        simp
      | cons v items ih =>
        rw [List.mapM_cons] at hread
        obtain ⟨a, ha, hread⟩ := Option.bind_eq_some_iff.1 hread
        obtain ⟨rest, hrest, hread⟩ := Option.bind_eq_some_iff.1 hread
        obtain rfl := Option.some.inj hread
        exact List.forall_mem_cons.2 ⟨h.fits_of_read v a ha, ih rest hrest⟩
    · cases hread

end Plain

/-! ## Records -/

/-- The members of an object for those fields that are there. -/
def members (fields : List (String × Option Value)) : List (String × Value) :=
  fields.filterMap (fun f => f.2.map (fun v => (f.1, v)))

section Members

variable {fields : List (String × Option Value)}

@[simp] theorem members_nil : members [] = [] := rfl

@[simp] theorem members_cons_some (name : String) (v : Value) :
    members ((name, some v) :: fields) = (name, v) :: members fields := rfl

@[simp] theorem members_cons_map {α : Type} (name : String) (write : α → Value) (o : Option α) :
    members ((name, o.map write) :: fields) = Value.given name write o ++ members fields := by
  cases o with
  | none => rfl
  | some a => rfl

theorem names_members (fields : List (String × Option Value)) :
    ((members fields).map Prod.fst).Sublist (fields.map Prod.fst) := by
  induction fields with
  | nil => exact List.Sublist.slnil
  | cons f fields ih =>
    obtain ⟨name, v⟩ := f
    cases v with
    | none => exact ih.cons name
    | some v => exact ih.cons_cons name

theorem lookup_members (hnames : (fields.map Prod.fst).Nodup) (name : String) :
    (members fields).lookup name = (fields.lookup name).join := by
  induction fields with
  | nil => rfl
  | cons f fields ih =>
    obtain ⟨other, v⟩ := f
    obtain ⟨hfresh, hrest⟩ := List.nodup_cons.1 hnames
    have ih := ih hrest
    rw [Data.KeyMap.lookup_cons_eq_ite]
    cases v with
    | some v =>
      rw [members_cons_some, Data.KeyMap.lookup_cons_eq_ite, ih]
      split <;> rfl
    | none =>
      -- a field that is not there has no member, here or further on
      have hskip : members ((other, none) :: fields) = members fields := rfl
      rw [hskip, ih]
      split
      · next heq =>
        have hnone : fields.lookup name = none := by
          rw [List.lookup_eq_none_iff]
          intro x hx
          have hne : name ≠ x.1 := by
            rintro rfl
            exact hfresh (List.mem_map.2 ⟨x, hx, heq⟩)
          simpa using hne
        rw [hnone]
        rfl
      · rfl

theorem exactMembers_members (h : ∀ f ∈ fields, ∀ v ∈ f.2, v.exact = true) :
    Value.exactMembers (members fields) = true := by
  induction fields with
  | nil => rfl
  | cons f fields ih =>
    obtain ⟨name, v⟩ := f
    obtain ⟨hv, hrest⟩ := List.forall_mem_cons.1 h
    cases v with
    | none => exact ih hrest
    | some v =>
      rw [members_cons_some, Value.exactMembers, hv v rfl, ih hrest]
      rfl

end Members

namespace Record

variable {α : Type} {fits : α → Prop} {write : α → Value} {read : Value → Option α}
  {fields : List (String × Option Value)}

/-- An object of fields is a record with just these. -/
theorem ofValue?_members (hnames : (fields.map Prod.fst).Nodup) :
    ofValue? (fields.map Prod.fst) (.obj (members fields)) = some ⟨false, members fields⟩ :=
  ofValue?_obj hnames (names_members fields)

theorem required_members (h : Codec fits write read) (hnames : (fields.map Prod.fst).Nodup)
    (name : String) {a : α} (hfield : fields.lookup name = some (some (write a))) (ha : fits a) :
    required ⟨false, members fields⟩ name read = some a := by
  rw [required, field?, lookup_members hnames, hfield]
  exact h.read_write a ha

theorem optional_members (h : Codec fits write read) (hnames : (fields.map Prod.fst).Nodup)
    (name : String) {o : Option α} (hfield : fields.lookup name = some (o.map write))
    (ho : ∀ a ∈ o, fits a) :
    optional ⟨false, members fields⟩ name read = some o := by
  rw [optional, field?, lookup_members hnames, hfield]
  cases o with
  | none => rfl
  | some a =>
    simp only [Option.map_some, Option.join_some]
    split
    · next heq => cases heq
    · next heq => exact absurd (Option.some.inj heq) (h.write_ne_null a)
    · next heq =>
      cases heq
      rw [h.read_write a (ho a rfl)]
      rfl

theorem orElse_members (h : Codec fits write read) (hnames : (fields.map Prod.fst).Nodup)
    (name : String) {a : α} (hfield : fields.lookup name = some (some (write a))) (ha : fits a)
    (fallback : α) :
    orElse ⟨false, members fields⟩ name fallback read = some a := by
  rw [orElse, field?, lookup_members hnames, hfield]
  exact h.read_write a ha

theorem fits_of_required (h : Codec fits write read) {r : Record} {a : α}
    (hread : r.required name read = some a) : fits a := by
  obtain ⟨v, -, hv⟩ := Option.bind_eq_some_iff.1 hread
  exact h.fits_of_read v a hv

theorem fits_of_optional (h : Codec fits write read) {r : Record} {o : Option α}
    (hread : r.optional name read = some o) : ∀ a ∈ o, fits a := by
  rw [optional] at hread
  split at hread
  · split at hread
    · cases hread
    · obtain rfl := Option.some.inj hread
      simp
  · obtain rfl := Option.some.inj hread
    simp
  · obtain ⟨b, hb, rfl⟩ := Option.map_eq_some_iff.1 hread
    intro a ha
    obtain rfl := Option.some.inj ha
    exact h.fits_of_read _ _ hb

end Record

/-- A type whose values are written as objects, field by field. -/
theorem Codec.ofFields {α : Type} {fits : α → Prop} {write : α → Value} {read : Value → Option α}
    {fields : α → List (String × Option Value)} (hwrite : ∀ a, write a = .obj (members (fields a)))
    (hread : ∀ a, fits a → read (.obj (members (fields a))) = some a)
    (hexact : ∀ a, fits a → ∀ f ∈ fields a, ∀ v ∈ f.2, v.exact = true)
    (hfits : ∀ v a, read v = some a → fits a) : Codec fits write read where
  read_write a ha := by
    rw [hwrite]
    exact hread a ha
  exact_write a ha := by
    rw [hwrite, Value.exact]
    exact exactMembers_members (hexact a ha)
  write_ne_null a := by
    rw [hwrite]
    simp
  fits_of_read := hfits

/-! ## Texts -/

section Texts

variable {α : Type}

/-- The text that a value has after it has been read and written again. -/
def rewritten? (print : Value → String) (write : α → Value) (read : Value → Option α)
    (text : String) : Option String :=
  ((parse text).bind read).map (fun a => print (write a))

/-- Values are read back from the texts that are printed of them; and a text that
    is read and written again says the same and does not change any more. -/
structure RoundTripsBy (print : Value → String) (fits : α → Prop) (write : α → Value)
    (read : Value → Option α) : Prop where
  read_print : ∀ a, fits a → (parse (print (write a))).bind read = some a
  read_rewritten : ∀ text again, rewritten? print write read text = some again →
    (parse again).bind read = (parse text).bind read
  rewritten_rewritten : ∀ text again, rewritten? print write read text = some again →
    rewritten? print write read again = some again

/-- The same on one line and over many lines. -/
structure RoundTrips (fits : α → Prop) (write : α → Value) (read : Value → Option α) : Prop where
  compact : RoundTripsBy Value.compact fits write read
  pretty : RoundTripsBy Value.pretty fits write read

variable {fits : α → Prop} {write : α → Value} {read : Value → Option α}

theorem Codec.roundTripsBy (h : Codec fits write read) {print : Value → String}
    (hprint : ∀ v : Value, v.exact = true → parse (print v) = some v) :
    RoundTripsBy print fits write read := by
  have hread : ∀ a, fits a → (parse (print (write a))).bind read = some a := by
    intro a ha
    rw [hprint (write a) (h.exact_write a ha)]
    exact h.read_write a ha
  -- what has been read fits, so it is read back from its text
  have hagain : ∀ text again, rewritten? print write read text = some again →
      ∃ a, (parse text).bind read = some a ∧ (parse again).bind read = some a ∧
        print (write a) = again := by
    intro text again htext
    obtain ⟨a, ha, rfl⟩ := Option.map_eq_some_iff.1 htext
    obtain ⟨v, -, hv⟩ := Option.bind_eq_some_iff.1 ha
    exact ⟨a, ha, hread a (h.fits_of_read v a hv), rfl⟩
  refine ⟨hread, ?_, ?_⟩
  · intro text again htext
    obtain ⟨a, ha, ha', -⟩ := hagain text again htext
    rw [ha, ha']
  · intro text again htext
    obtain ⟨a, -, ha', rfl⟩ := hagain text again htext
    rw [rewritten?, ha']
    rfl

theorem Codec.roundTrips (h : Codec fits write read) : RoundTrips fits write read :=
  ⟨h.roundTripsBy (fun _ => parse_compact), h.roundTripsBy (fun _ => parse_pretty)⟩

end Texts

end WebBaseline.Json
