/-
  `Foundation.ProtoMerge`: parsing one input after another.

  A reader that has read a field has not looked at what follows it.  So the parse of two
  inputs in a row is the parse of the second into the message the first has left, and a
  field nobody knows may stand between any two others.

  Nothing in this file mentions the chat server.
-/
import AppChat.Foundation.ProtoWire

set_option autoImplicit false

namespace AppChat.Foundation.ProtoWire

/-! ## What follows is not looked at -/

theorem readVarint_append {k n : Nat} {input rest : Bytes}
    (h : readVarint k input = some (n, rest)) (more : Bytes) :
    readVarint k (input ++ more) = some (n, rest ++ more) := by
  induction k generalizing n input with
  | zero => cases h
  | succ k ih =>
      cases input with
      | nil => cases h
      | cons b bs =>
          rw [readVarint] at h
          rw [List.cons_append, readVarint]
          split at h
          · rename_i hb
            cases h
            rw [if_pos hb]
          · rename_i hb
            obtain ⟨⟨n', rest'⟩, hread, heq⟩ := Option.map_eq_some_iff.mp h
            cases heq
            rw [if_neg hb, ih hread, Option.map_some]

theorem length_readVarint {k n : Nat} {input rest : Bytes}
    (h : readVarint k input = some (n, rest)) : rest.length < input.length := by
  induction k generalizing n input with
  | zero => cases h
  | succ k ih =>
      cases input with
      | nil => cases h
      | cons b bs =>
          rw [readVarint] at h
          split at h
          · cases h
            exact Nat.lt_succ_self _
          · obtain ⟨⟨n', rest'⟩, hread, heq⟩ := Option.map_eq_some_iff.mp h
            cases heq
            exact (ih hread).trans (Nat.lt_succ_self _)

section Reading

variable {tag n : Nat} {input rest : Bytes}

theorem readTag_append (h : readTag input = some (tag, rest)) (more : Bytes) :
    readTag (input ++ more) = some (tag, rest ++ more) := by
  obtain ⟨r, hread, heq⟩ := Option.map_eq_some_iff.mp h
  cases heq
  rw [readTag, readVarint_append hread, Option.map_some]

theorem length_readTag (h : readTag input = some (tag, rest)) : rest.length < input.length := by
  obtain ⟨r, hread, heq⟩ := Option.map_eq_some_iff.mp h
  cases heq
  exact length_readVarint hread

theorem readSize_eq_some (h : readSize input = some (n, rest)) :
    readVarint 5 input = some (n, rest) ∧ n < 2 ^ 31 := by
  obtain ⟨r, hread, hr⟩ := Option.bind_eq_some_iff.mp h
  split at hr
  · rename_i hlt
    cases hr
    exact ⟨hread, hlt⟩
  · cases hr

theorem readSize_append (h : readSize input = some (n, rest)) (more : Bytes) :
    readSize (input ++ more) = some (n, rest ++ more) := by
  obtain ⟨hread, hlt⟩ := readSize_eq_some h
  rw [readSize, readVarint_append hread, Option.bind_some, if_pos hlt]

theorem length_readSize (h : readSize input = some (n, rest)) : rest.length < input.length :=
  length_readVarint (readSize_eq_some h).1

theorem skipValue_append (h : skipValue tag input = some rest) (more : Bytes) :
    skipValue tag (input ++ more) = some (rest ++ more) := by
  unfold skipValue at h ⊢
  split at h
  · obtain ⟨r, hread, rfl⟩ := Option.map_eq_some_iff.mp h
    rw [readVarint_append hread, Option.map_some]
  · split at h
    · rename_i hlong
      cases h
      rw [if_pos (by rw [List.length_append]; omega), List.drop_append_of_le_length hlong]
    · cases h
  · obtain ⟨r, hread, hr⟩ := Option.bind_eq_some_iff.mp h
    split at hr
    · rename_i hlong
      cases hr
      rw [readSize_append hread, Option.bind_some,
        if_pos (by rw [List.length_append]; omega), List.drop_append_of_le_length hlong]
    · cases hr
  · split at h
    · rename_i hlong
      cases h
      rw [if_pos (by rw [List.length_append]; omega), List.drop_append_of_le_length hlong]
    · cases h
  · cases h

theorem length_skipValue (h : skipValue tag input = some rest) : rest.length ≤ input.length := by
  unfold skipValue at h
  split at h
  · obtain ⟨r, hread, rfl⟩ := Option.map_eq_some_iff.mp h
    exact (length_readVarint hread).le
  · split at h
    · cases h
      rw [List.length_drop]
      exact Nat.sub_le _ _
    · cases h
  · obtain ⟨r, hread, hr⟩ := Option.bind_eq_some_iff.mp h
    split at hr
    · cases hr
      have hlt := length_readSize hread
      rw [List.length_drop]
      omega
    · cases hr
  · split at h
    · cases h
      rw [List.length_drop]
      exact Nat.sub_le _ _
    · cases h
  · cases h

/-- Skipping a group takes no more turns when more follows. -/
theorem skipGroups_append {depth fuel fuel' : Nat} {open_ : List Nat} {input rest : Bytes}
    (h : skipGroups depth fuel open_ input = some rest) (hfuel : fuel ≤ fuel') (more : Bytes) :
    skipGroups depth fuel' open_ (input ++ more) = some (rest ++ more) := by
  induction fuel generalizing fuel' open_ input with
  | zero =>
      cases open_ with
      | nil =>
          cases h
          cases fuel' <;> rfl
      | cons tag outer => cases h
  | succ fuel ih =>
      cases open_ with
      | nil =>
          cases h
          cases fuel' <;> rfl
      | cons open_ outer =>
          obtain ⟨fuel', rfl⟩ : ∃ k, fuel' = k + 1 := ⟨fuel' - 1, by omega⟩
          have hle : fuel ≤ fuel' := Nat.le_of_succ_le_succ hfuel
          rw [skipGroups] at h ⊢
          split at h
          · cases h
          · rename_i tag rest' htag
            simp only [readTag_append htag]
            split at h
            · rename_i hend
              split at h
              · rename_i hopen
                rw [if_pos hend, if_pos hopen]
                exact ih h hle
              · cases h
            · rename_i hend
              rw [if_neg hend]
              split at h
              · cases h
              · rename_i hfield
                rw [if_neg hfield]
                split at h
                · rename_i hgroup
                  rw [if_pos hgroup]
                  split at h
                  · rename_i hdepth
                    rw [if_pos hdepth]
                    exact ih h hle
                  · cases h
                · rename_i hgroup
                  obtain ⟨skipped, hskip, hrest⟩ := Option.bind_eq_some_iff.mp h
                  rw [if_neg hgroup, skipValue_append hskip, Option.bind_some]
                  exact ih hrest hle

theorem length_skipGroups {depth fuel : Nat} {open_ : List Nat} {input rest : Bytes}
    (h : skipGroups depth fuel open_ input = some rest) : rest.length ≤ input.length := by
  induction fuel generalizing open_ input with
  | zero =>
      cases open_ with
      | nil =>
          cases h
          exact le_rfl
      | cons tag outer => cases h
  | succ fuel ih =>
      cases open_ with
      | nil =>
          cases h
          exact le_rfl
      | cons open_ outer =>
          rw [skipGroups] at h
          split at h
          · cases h
          · rename_i tag rest' htag
            have hlt := length_readTag htag
            split at h
            · split at h
              · exact (ih h).trans hlt.le
              · cases h
            · split at h
              · cases h
              · split at h
                · split at h
                  · exact (ih h).trans hlt.le
                  · cases h
                · obtain ⟨skipped, hskip, hrest⟩ := Option.bind_eq_some_iff.mp h
                  exact (ih hrest).trans ((length_skipValue hskip).trans hlt.le)

theorem skipField_append {depth : Nat} (h : skipField depth tag input = some rest) (more : Bytes) :
    skipField depth tag (input ++ more) = some (rest ++ more) := by
  unfold skipField at h ⊢
  split at h
  · cases h
  · rename_i hfield
    rw [if_neg hfield]
    split at h
    · rename_i hgroup
      rw [if_pos hgroup]
      split at h
      · rename_i hdepth
        rw [if_pos hdepth]
        exact skipGroups_append h (by simp) more
      · cases h
    · rename_i hgroup
      rw [if_neg hgroup]
      exact skipValue_append h more

theorem length_skipField {depth : Nat} (h : skipField depth tag input = some rest) :
    rest.length ≤ input.length := by
  unfold skipField at h
  split at h
  · cases h
  · split at h
    · split at h
      · exact length_skipGroups h
      · cases h
    · exact length_skipValue h

end Reading

/-! ## Readers of fields -/

section Readers

variable {M S : Type}

namespace FieldReader

/-- The reader does not look at what follows the field, and puts nothing back. -/
structure Local (field : FieldReader M) : Prop where
  append : ∀ msg input msg' rest, field.read msg input = .next msg' rest →
    ∀ more, field.read msg (input ++ more) = .next msg' (rest ++ more)
  length_le : ∀ msg input msg' rest, field.read msg input = .next msg' rest →
    rest.length ≤ input.length

/-- A message grows by no more than what has been read. -/
def Bounded (weight : M → Nat) (field : FieldReader M) : Prop :=
  ∀ msg input msg' rest, field.read msg input = .next msg' rest →
    weight msg' + rest.length ≤ weight msg + input.length

/-- A good message stays good. -/
def Keeps (Good : M → Prop) (field : FieldReader M) : Prop :=
  ∀ msg input msg' rest, Good msg → field.read msg input = .next msg' rest → Good msg'

end FieldReader

variable {tag : Nat} {msg msg' : M} {input rest : Bytes}

/-! ### What each reader has read -/

theorem int32Field_read {set : M → Int32 → M}
    (h : (int32Field tag set).read msg input = .next msg' rest) :
    ∃ n, readVarint 10 input = some (n, rest) ∧ msg' = set msg (Int32.ofNat n) := by
  simp only [int32Field] at h
  split at h
  · rename_i n rest' hread
    cases h
    exact ⟨n, hread, rfl⟩
  · cases h

theorem stringField_read {set : M → Bytes → M}
    (h : (stringField tag set).read msg input = .next msg' rest) :
    ∃ size after, readSize input = some (size, after) ∧ size ≤ after.length ∧
      validUtf8 (after.take size) = true ∧ msg' = set msg (after.take size) ∧
      rest = after.drop size := by
  simp only [stringField] at h
  split at h
  · cases h
  · rename_i size after hread
    split at h
    · rename_i hlong
      split at h
      · rename_i hutf
        cases h
        exact ⟨size, after, hread, hlong, hutf, rfl, rfl⟩
      · cases h
    · cases h

theorem messageField_read {get : M → S} {set : M → S → M} {parse : S → Bytes → S × Bool}
    (h : (messageField tag get set parse).read msg input = .next msg' rest) :
    ∃ size after inner, readSize input = some (size, after) ∧ size ≤ after.length ∧
      parse (get msg) (after.take size) = (inner, true) ∧ msg' = set msg inner ∧
      rest = after.drop size := by
  simp only [messageField] at h
  split at h
  · cases h
  · rename_i size after hread
    split at h
    · rename_i hparsed
      cases h
      exact ⟨size, after, _, hread, hparsed.1, Prod.ext rfl hparsed.2, rfl, rfl⟩
    · cases h

/-! ### No reader looks ahead -/

theorem local_int32Field (tag : Nat) (set : M → Int32 → M) : (int32Field tag set).Local := by
  constructor
  · intro msg input msg' rest h more
    obtain ⟨n, hread, rfl⟩ := int32Field_read h
    simp only [int32Field, readVarint_append hread]
  · intro msg input msg' rest h
    obtain ⟨n, hread, -⟩ := int32Field_read h
    exact (length_readVarint hread).le

theorem local_stringField (tag : Nat) (set : M → Bytes → M) : (stringField tag set).Local := by
  constructor
  · intro msg input msg' rest h more
    obtain ⟨size, after, hread, hlong, hutf, rfl, rfl⟩ := stringField_read h
    have hlong' : size ≤ (after ++ more).length := by
      rw [List.length_append]
      omega
    simp only [stringField, readSize_append hread, if_pos hlong',
      List.take_append_of_le_length hlong, List.drop_append_of_le_length hlong, if_pos hutf]
  · intro msg input msg' rest h
    obtain ⟨size, after, hread, -, -, -, rfl⟩ := stringField_read h
    have hlt := length_readSize hread
    rw [List.length_drop]
    omega

theorem local_messageField (tag : Nat) (get : M → S) (set : M → S → M)
    (parse : S → Bytes → S × Bool) : (messageField tag get set parse).Local := by
  constructor
  · intro msg input msg' rest h more
    obtain ⟨size, after, inner, hread, hlong, hparse, rfl, rfl⟩ := messageField_read h
    have hlong' : size ≤ (after ++ more).length := by
      rw [List.length_append]
      omega
    simp only [messageField, readSize_append hread, List.take_append_of_le_length hlong,
      List.drop_append_of_le_length hlong, hparse, hlong', and_self, if_true]
  · intro msg input msg' rest h
    obtain ⟨size, after, inner, hread, -, -, -, rfl⟩ := messageField_read h
    have hlt := length_readSize hread
    rw [List.length_drop]
    omega

/-! ### How much a reader adds -/

section Bounded

variable {weight : M → Nat}

theorem bounded_int32Field {set : M → Int32 → M} (hset : ∀ msg v, weight (set msg v) ≤ weight msg) :
    (int32Field tag set).Bounded weight := by
  intro msg input msg' rest h
  obtain ⟨n, hread, rfl⟩ := int32Field_read h
  have hlt := length_readVarint hread
  have hweight := hset msg (Int32.ofNat n)
  omega

theorem bounded_stringField {set : M → Bytes → M}
    (hset : ∀ msg s, weight (set msg s) ≤ weight msg + s.length) :
    (stringField tag set).Bounded weight := by
  intro msg input msg' rest h
  obtain ⟨size, after, hread, hlong, -, rfl, rfl⟩ := stringField_read h
  have hlt := length_readSize hread
  have hweight := hset msg (after.take size)
  rw [List.length_take] at hweight
  rw [List.length_drop]
  omega

theorem bounded_messageField {get : M → S} {set : M → S → M} {parse : S → Bytes → S × Bool}
    {weight' : S → Nat} (hget : ∀ msg, weight' (get msg) ≤ weight msg)
    (hset : ∀ msg inner, weight (set msg inner) ≤ weight' inner)
    (hparse : ∀ inner body inner', parse inner body = (inner', true) →
      weight' inner' ≤ weight' inner + body.length) :
    (messageField tag get set parse).Bounded weight := by
  intro msg input msg' rest h
  obtain ⟨size, after, inner, hread, hlong, hinner, rfl, rfl⟩ := messageField_read h
  have hlt := length_readSize hread
  have hbody := hparse _ _ _ hinner
  have hweight := hset msg inner
  have hold := hget msg
  rw [List.length_take] at hbody
  rw [List.length_drop]
  omega

/-- A message with no weight adds none. -/
theorem bounded_messageField_of_zero {get : M → S} {set : M → S → M}
    {parse : S → Bytes → S × Bool} (hset : ∀ msg inner, weight (set msg inner) = 0) :
    (messageField tag get set parse).Bounded weight := by
  intro msg input msg' rest h
  have hle := (local_messageField tag get set parse).length_le _ _ _ _ h
  obtain ⟨size, after, inner, -, -, -, rfl, -⟩ := messageField_read h
  have hweight := hset msg inner
  omega

end Bounded

/-! ### What stays good -/

section Keeps

variable {Good : M → Prop}

theorem keeps_int32Field {set : M → Int32 → M} (hset : ∀ msg v, Good msg → Good (set msg v)) :
    (int32Field tag set).Keeps Good := by
  intro msg input msg' rest hmsg h
  obtain ⟨n, -, rfl⟩ := int32Field_read h
  exact hset msg _ hmsg

/-- What is stored is UTF-8. -/
theorem keeps_stringField {set : M → Bytes → M}
    (hset : ∀ msg s, Good msg → validUtf8 s = true → Good (set msg s)) :
    (stringField tag set).Keeps Good := by
  intro msg input msg' rest hmsg h
  obtain ⟨size, after, -, -, hutf, rfl, -⟩ := stringField_read h
  exact hset msg _ hmsg hutf

theorem keeps_messageField {get : M → S} {set : M → S → M} {parse : S → Bytes → S × Bool}
    {Good' : S → Prop} (hget : ∀ msg, Good msg → Good' (get msg))
    (hset : ∀ msg inner, Good' inner → Good (set msg inner))
    (hparse : ∀ inner body inner', Good' inner → parse inner body = (inner', true) → Good' inner') :
    (messageField tag get set parse).Keeps Good := by
  intro msg input msg' rest hmsg h
  obtain ⟨size, after, inner, -, -, hinner, rfl, -⟩ := messageField_read h
  exact hset msg inner (hparse _ _ _ (hget msg hmsg) hinner)

/-- A message that is good whatever it is. -/
theorem keeps_messageField_of_good {get : M → S} {set : M → S → M}
    {parse : S → Bytes → S × Bool} (hset : ∀ msg inner, Good (set msg inner)) :
    (messageField tag get set parse).Keeps Good := by
  intro msg input msg' rest _ h
  obtain ⟨size, after, inner, -, -, -, rfl, -⟩ := messageField_read h
  exact hset msg inner

end Keeps

end Readers

/-! ## The parser, turn by turn -/

section Parser

variable {M : Type} {fields : List (FieldReader M)} {depth : Nat}

/-- A turn of the parser reads a field it knows, or skips one it does not know. -/
inductive Turn (fields : List (FieldReader M)) (depth : Nat) (msg : M) (input : Bytes) :
    M → Bytes → Prop where
  | known {tag : Nat} {value rest : Bytes} {field : FieldReader M} {msg' : M} :
      readTag input = some (tag, value) → fields.find? (·.tag = tag) = some field →
      field.read msg value = .next msg' rest → Turn fields depth msg input msg' rest
  | unknown {tag : Nat} {value rest : Bytes} :
      readTag input = some (tag, value) → fields.find? (·.tag = tag) = none →
      ¬ (tag % 8 = 4 ∨ tag = 0) → skipField depth tag value = some rest →
        Turn fields depth msg input msg rest

/-- The whole input is read. -/
inductive Reads (fields : List (FieldReader M)) (depth : Nat) : M → Bytes → M → Prop where
  | nil (msg : M) : Reads fields depth msg [] msg
  | turn {msg msg' m : M} {input rest : Bytes} :
      Turn fields depth msg input msg' rest → Reads fields depth msg' rest m →
        Reads fields depth msg input m

/-- A field nobody knows, and nothing after it. -/
def UnknownField (fields : List (FieldReader M)) (depth : Nat) (input : Bytes) : Prop :=
  ∃ tag value, readTag input = some (tag, value) ∧ fields.find? (·.tag = tag) = none ∧
    ¬ (tag % 8 = 4 ∨ tag = 0) ∧ skipField depth tag value = some []

variable {msg msg' m : M} {input rest : Bytes}

/-- The loop makes the turn. -/
theorem parseFields_turn (h : Turn fields depth msg input msg' rest) (fuel : Nat) :
    parseFields fields depth (fuel + 1) msg input = parseFields fields depth fuel msg' rest := by
  have hne : ∀ {tag value}, readTag input = some (tag, value) → ∃ b bs, input = b :: bs := by
    intro tag value htag
    exact List.exists_cons_of_length_pos ((Nat.zero_le _).trans_lt (length_readTag htag))
  cases h with
  | known htag hfind hread =>
      obtain ⟨b, bs, rfl⟩ := hne htag
      simp only [parseFields, htag, hfind, hread]
  | unknown htag hfind hend hskip =>
      obtain ⟨b, bs, rfl⟩ := hne htag
      simp only [parseFields, htag, hfind, hend, if_false, hskip]

/-- Where the loop can make no turn it fails. -/
theorem turn_or_fail (fields : List (FieldReader M)) (depth : Nat) (msg : M) {input : Bytes}
    (hne : input ≠ []) :
    (∃ msg' rest, Turn fields depth msg input msg' rest) ∨
      ∃ m, ∀ fuel, parseFields fields depth (fuel + 1) msg input = (m, false) := by
  obtain ⟨b, bs, rfl⟩ := List.exists_cons_of_ne_nil hne
  cases htag : readTag (b :: bs) with
  | none =>
      refine Or.inr ⟨msg, fun fuel => ?_⟩
      rw [parseFields, htag]
  | some r =>
      obtain ⟨tag, value⟩ := r
      cases hfind : fields.find? (·.tag = tag) with
      | some field =>
          cases hread : field.read msg value with
          | next msg' rest => exact Or.inl ⟨msg', rest, .known htag hfind hread⟩
          | fail msg' =>
              refine Or.inr ⟨msg', fun fuel => ?_⟩
              simp only [parseFields, htag, hfind, hread]
      | none =>
          by_cases hend : tag % 8 = 4 ∨ tag = 0
          · refine Or.inr ⟨msg, fun fuel => ?_⟩
            simp only [parseFields, htag, hfind, hend, if_true]
          · cases hskip : skipField depth tag value with
            | some rest => exact Or.inl ⟨msg, rest, .unknown htag hfind hend hskip⟩
            | none =>
                refine Or.inr ⟨msg, fun fuel => ?_⟩
                simp only [parseFields, htag, hfind, hend, if_false, hskip]

theorem Turn.append (h : Turn fields depth msg input msg' rest) (hlocal : ∀ f ∈ fields, f.Local)
    (more : Bytes) : Turn fields depth msg (input ++ more) msg' (rest ++ more) := by
  cases h with
  | known htag hfind hread =>
      have hfield := hlocal _ (List.mem_of_find?_eq_some hfind)
      exact .known (readTag_append htag more) hfind (hfield.append _ _ _ _ hread more)
  | unknown htag hfind hend hskip =>
      exact .unknown (readTag_append htag more) hfind hend (skipField_append hskip more)

theorem Turn.length_lt (h : Turn fields depth msg input msg' rest) (hlocal : ∀ f ∈ fields, f.Local) :
    rest.length < input.length := by
  cases h with
  | known htag hfind hread =>
      have hfield := hlocal _ (List.mem_of_find?_eq_some hfind)
      exact (hfield.length_le _ _ _ _ hread).trans_lt (length_readTag htag)
  | unknown htag hfind hend hskip =>
      exact (length_skipField hskip).trans_lt (length_readTag htag)

section Local

variable (hlocal : ∀ f ∈ fields, f.Local)
include hlocal

/-- More turns than the input has bytes make no difference. -/
theorem parseFields_fuel {fuel fuel' : Nat} (h : input.length ≤ fuel) (h' : input.length ≤ fuel') :
    parseFields fields depth fuel msg input = parseFields fields depth fuel' msg input := by
  induction fuel generalizing fuel' msg input with
  | zero =>
      obtain rfl : input = [] := List.eq_nil_of_length_eq_zero (Nat.le_zero.mp h)
      cases fuel' <;> rfl
  | succ fuel ih =>
      rcases eq_or_ne input [] with rfl | hne
      · cases fuel' <;> rfl
      · have hpos := List.length_pos_iff.mpr hne
        obtain ⟨fuel', rfl⟩ : ∃ k, fuel' = k + 1 := ⟨fuel' - 1, by omega⟩
        rcases turn_or_fail fields depth msg hne with ⟨msg', rest, hturn⟩ | ⟨m, hfail⟩
        · have hlt := hturn.length_lt hlocal
          rw [parseFields_turn hturn, parseFields_turn hturn]
          exact ih (by omega) (by omega)
        · rw [hfail, hfail]

theorem mergeFrom_turn (h : Turn fields depth msg input msg' rest) :
    mergeFrom fields depth msg input = mergeFrom fields depth msg' rest := by
  have hlt := h.length_lt hlocal
  obtain ⟨fuel, hfuel⟩ : ∃ k, input.length = k + 1 := ⟨input.length - 1, by omega⟩
  rw [mergeFrom, hfuel, parseFields_turn h]
  exact parseFields_fuel hlocal (by omega) le_rfl

/-- The parser accepts an input when it reads the whole of it. -/
theorem mergeFrom_iff_reads :
    mergeFrom fields depth msg input = (m, true) ↔ Reads fields depth msg input m := by
  constructor
  · intro h
    induction hn : input.length using Nat.strong_induction_on generalizing msg input with
    | h n ih =>
        rcases eq_or_ne input [] with rfl | hne
        · cases h
          exact .nil m
        · rcases turn_or_fail fields depth msg hne with ⟨msg', rest, hturn⟩ | ⟨m', hfail⟩
          · have hlt := hturn.length_lt hlocal
            rw [mergeFrom_turn hlocal hturn] at h
            exact .turn hturn (ih rest.length (hn ▸ hlt) h rfl)
          · obtain ⟨b, bs, rfl⟩ := List.exists_cons_of_ne_nil hne
            rw [mergeFrom, List.length_cons, hfail] at h
            cases h
  · intro h
    induction h with
    | nil msg => rfl
    | turn hturn _ ih => rw [mergeFrom_turn hlocal hturn, ih]

/-- **One input after another**: the second is parsed into what the first has left. -/
theorem mergeFrom_append (h : mergeFrom fields depth msg input = (m, true)) (more : Bytes) :
    mergeFrom fields depth msg (input ++ more) = mergeFrom fields depth m more := by
  have hreads := (mergeFrom_iff_reads hlocal).mp h
  clear h
  induction hreads with
  | nil msg => rfl
  | turn hturn _ ih => rw [mergeFrom_turn hlocal (hturn.append hlocal more), ih]

/-- A field nobody knows is not noticed. -/
theorem mergeFrom_unknown (h : UnknownField fields depth input) (more : Bytes) :
    mergeFrom fields depth msg (input ++ more) = mergeFrom fields depth msg more := by
  obtain ⟨tag, value, htag, hfind, hend, hskip⟩ := h
  have hturn : Turn fields depth msg input msg [] := .unknown htag hfind hend hskip
  exact mergeFrom_turn hlocal (hturn.append hlocal more)

end Local

/-! ## What is accepted -/

theorem Reads.keeps (h : Reads fields depth msg input m) {Good : M → Prop}
    (hkeeps : ∀ f ∈ fields, f.Keeps Good) (hmsg : Good msg) : Good m := by
  induction h with
  | nil _ => exact hmsg
  | turn hturn _ ih =>
      cases hturn with
      | known _ hfind hread =>
          exact ih (hkeeps _ (List.mem_of_find?_eq_some hfind) _ _ _ _ hmsg hread)
      | unknown _ _ _ _ => exact ih hmsg

theorem Reads.bounded (h : Reads fields depth msg input m) {weight : M → Nat}
    (hbounded : ∀ f ∈ fields, f.Bounded weight) : weight m ≤ weight msg + input.length := by
  induction h with
  | nil msg => exact Nat.le_add_right _ _
  | turn hturn _ ih =>
      cases hturn with
      | known htag hfind hread =>
          have hfield := hbounded _ (List.mem_of_find?_eq_some hfind) _ _ _ _ hread
          have hlt := length_readTag htag
          omega
      | unknown htag _ _ hskip =>
          have hle := length_skipField hskip
          have hlt := length_readTag htag
          omega

end Parser

/-! ## What is written is merged -/

namespace Parses

variable {M : Type} {fields : List (FieldReader M)} {depth tag : Nat} {msg msg' : M} {rest : Bytes}

/-- Where the input ends the message must be there. -/
theorem nil_of_eq (h : msg = msg') : Parses fields depth msg [] msg' := h ▸ nil msg

/-- A number that is not written leaves the one that is there. -/
theorem mergeInt32 {set : M → Int32 → M} {v : Int32} (htag : tag < 128)
    (hfind : fields.find? (·.tag = tag) = some (int32Field tag set))
    (hrest : Parses fields depth (if v ≠ 0 then set msg v else msg) rest msg') :
    Parses fields depth msg (writeInt32 tag v ++ rest) msg' := by
  by_cases hv : v = 0
  · rw [if_neg (not_not.mpr hv)] at hrest
    rw [writeInt32, if_pos hv]
    exact hrest
  · rw [if_pos hv] at hrest
    exact int32 htag hfind (fun h => absurd h hv) hrest

/-- A string that is not written leaves the one that is there. -/
theorem mergeString {set : M → Bytes → M} {s : Bytes} (htag : tag < 128)
    (hfind : fields.find? (·.tag = tag) = some (stringField tag set))
    (hsize : s.length < 2 ^ 31) (hutf : validUtf8 s = true)
    (hrest : Parses fields depth (if 0 < s.length then set msg s else msg) rest msg') :
    Parses fields depth msg (writeString tag s ++ rest) msg' := by
  by_cases hs : s = []
  · rw [if_neg (by simp [hs])] at hrest
    rw [writeString, if_pos hs]
    exact hrest
  · rw [if_pos (List.length_pos_iff.mpr hs)] at hrest
    exact string htag hfind hsize hutf (fun h => absurd h hs) hrest

end Parses

/-! ## Putting strings together -/

theorem validUtf8_cons_of_ascii {b : UInt8} (hb : b < 0x80) (s : Bytes) :
    validUtf8 (b :: s) = validUtf8 s := by
  rw [validUtf8.eq_def]
  simp only [hb, if_true]

theorem validUtf8_append {s t : Bytes} (hs : validUtf8 s = true) (ht : validUtf8 t = true) :
    validUtf8 (s ++ t) = true := by
  induction s using validUtf8.induct with
  | case1 => exact ht
  | case2 b s hb ih =>
      rw [validUtf8_cons_of_ascii hb] at hs
      rw [List.cons_append, validUtf8_cons_of_ascii hb]
      exact ih hs
  | case3 b hb => simp [validUtf8, hb] at hs
  | case4 b hb b₁ s htwo ih =>
      rw [validUtf8.eq_def] at hs ⊢
      simp only [List.cons_append, hb, if_false, htwo, if_true, Bool.and_eq_true] at hs ⊢
      exact ⟨hs.1, ih hs.2⟩
  | case5 b hb b₁ htwo => simp [validUtf8, hb, htwo] at hs
  | case6 b hb b₁ htwo b₂ s hthree ih =>
      rw [validUtf8.eq_def] at hs ⊢
      simp only [List.cons_append, hb, if_false, htwo, hthree, if_true, Bool.false_eq_true,
        Bool.and_eq_true] at hs ⊢
      exact ⟨hs.1, ih hs.2⟩
  | case7 b hb b₁ htwo b₂ hthree => simp [validUtf8, hb, htwo, hthree] at hs
  | case8 b hb b₁ htwo b₂ hthree b₃ s ih =>
      rw [validUtf8.eq_def] at hs ⊢
      simp only [List.cons_append, hb, if_false, htwo, hthree, Bool.false_eq_true,
        Bool.and_eq_true] at hs ⊢
      exact ⟨hs.1, ih hs.2⟩

theorem validUtf8_of_ascii {s : Bytes} (h : ∀ b ∈ s, b < 0x80) : validUtf8 s = true := by
  induction s with
  | nil => rfl
  | cons b s ih =>
      obtain ⟨hb, hrest⟩ := List.forall_mem_cons.mp h
      rw [validUtf8_cons_of_ascii hb]
      exact ih hrest

end AppChat.Foundation.ProtoWire
