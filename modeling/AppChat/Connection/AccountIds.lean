/-
  `Connection.AccountIds`: do two accounts have different ids?

  Every process counts from 1, whatever the table holds.  In an orderly life of a
  database the ids stay unique exactly as long as every id in the table was issued
  by the process that issues the next one.
-/
import AppChat.Connection.Accounts

set_option autoImplicit false

namespace AppChat.Connection

open Foundation Foundation.SqlText Storage Serialize

namespace Server

variable {E : Sqlite}

/-! ## Unique ids -/

/-- Accounts with different logins have different ids, no id is -1, and no entry of
the membership store is under the ids of two accounts. -/
structure UniqueIds (sv : Server (sqlDatabase E)) : Prop where
  ids : ∀ row ∈ sv.accounts, ∀ row' ∈ sv.accounts,
    row.login ≠ row'.login → row.loginId ≠ row'.loginId
  ne_minusOne : ∀ row ∈ sv.accounts, row.loginId ≠ -1
  entries : ∀ c r, sv.chat.manager.Subscribed c r ∨ sv.chat.manager.Indexed c r →
    ∀ row ∈ sv.accounts, ∀ row' ∈ sv.accounts,
      row.loginId = c → row'.loginId = c → row.login = row'.login

theorem uniqueIds_of_ids {sv : Server (sqlDatabase E)} (hs : sv.SoundAccounts)
    (hids : ∀ row ∈ sv.accounts, ∀ row' ∈ sv.accounts,
      row.login ≠ row'.login → row.loginId ≠ row'.loginId) : sv.UniqueIds where
  ids := hids
  ne_minusOne row hrow := ne_minusOne_of_pos (hs.positive row hrow)
  entries c r _ row hrow row' hrow' hc hc' := by
    by_contra hne
    exact hids row hrow row' hrow' hne (hc.trans hc'.symm)

/-- The process that issues an id has issued every id in the table: there was no
restart since the table got its first row. -/
def Issued (sv : Server (sqlDatabase E)) (e : LifeEvent) : Prop :=
  ∀ m, sv.Issues e m → sv.database.isOpen = true →
    ∀ row ∈ sv.accounts, row.loginId.toInt ≤ sv.lastId.toInt

/-- The ids in the table are 1, 2, 3 and so on, and an open handle counts no
further. -/
structure Numbered (sv : Server (sqlDatabase E)) : Prop where
  sound : sv.SoundAccounts
  ids : ∀ (i : Nat) (row : LoginsRow), sv.accounts[i]? = some row →
    row.loginId.toInt = (i : Int) + 1
  counter : sv.database.isOpen = true → sv.lastId.toInt ≤ sv.accounts.length

/-! ## Numbered tables -/

section Numbered

variable {sv sv' : Server (sqlDatabase E)} {e : LifeEvent}

theorem Numbered.uniqueIds (h : sv.Numbered) : sv.UniqueIds := by
  refine uniqueIds_of_ids h.sound ?_
  intro row hrow row' hrow' hlogin hid
  obtain ⟨i, hi⟩ := List.mem_iff_getElem?.mp hrow
  obtain ⟨j, hj⟩ := List.mem_iff_getElem?.mp hrow'
  have hrowId := h.ids i row hi
  have hrowId' := h.ids j row' hj
  have hij : i = j := by
    rw [hid] at hrowId
    omega
  subst hij
  rw [hi, Option.some.injEq] at hj
  exact hlogin (congrArg LoginsRow.login hj)

/-- In a numbered table the next id is new exactly when the counter stands at the
end of the table. -/
theorem Numbered.length_eq (h : sv.Numbered) (hopen : sv.database.isOpen = true)
    (hissued : ∀ row ∈ sv.accounts, row.loginId.toInt ≤ sv.lastId.toInt) :
    (sv.accounts.length : Int) = sv.lastId.toInt := by
  have hle := h.counter hopen
  have hpos := h.sound.counter
  cases hlength : sv.accounts.length with
  | zero => omega
  | succ n =>
      have hlast : sv.accounts[n]? = some sv.accounts[n] :=
        List.getElem?_eq_getElem (by omega)
      have hid := h.ids n _ hlast
      have hbound := hissued _ (List.mem_of_getElem? hlast)
      omega

theorem numbered_effect (h : AccountEffect sv e sv') (hs : sv.Numbered) (hissued : sv.Issued e) :
    sv'.Numbered := by
  have hsound := soundAccounts_effect h hs.sound
  cases h with
  | keep _ hopen haccounts hlast =>
      refine ⟨hsound, ?_, ?_⟩
      · rw [haccounts]
        exact hs.ids
      · rw [haccounts, hlast, hopen]
        exact hs.counter
  | lose _ hclosed haccounts _ _ =>
      refine ⟨hsound, ?_, ?_⟩
      · rw [haccounts]
        exact hs.ids
      · rw [hclosed]
        exact fun hopen => absurd hopen Bool.false_ne_true
  | restart _ haccounts hlast =>
      refine ⟨hsound, ?_, ?_⟩
      · rw [haccounts]
        exact hs.ids
      · rw [hlast]
        exact fun _ => Int.natCast_nonneg _
  | @insert m a p hins _ haccounts hlast =>
      have hlength := hs.length_eq hins.isOpen (hissued m hins.issues hins.isOpen)
      have hsucc := toInt_succ hs.sound.counter hins.counter
      refine ⟨hsound, ?_, ?_⟩
      · intro i row hrow
        rw [haccounts] at hrow
        rcases Nat.lt_trichotomy i sv.accounts.length with hlt | heq | hgt
        · rw [List.getElem?_append_left hlt] at hrow
          exact hs.ids i row hrow
        · rw [heq, List.getElem?_concat_length, Option.some.injEq] at hrow
          rw [← hrow, hsucc, heq, hlength]
        · rw [List.getElem?_eq_none (by simp; omega)] at hrow
          cases hrow
      · intro _
        rw [haccounts, hlast, hsucc, List.length_append, List.length_singleton]
        omega

/-- A step that issues an id below the end of the table issues one that another
account has. -/
theorem issued_of_uniqueIds (h : AccountEffect sv e sv') (hs : sv.Numbered)
    (hunique : sv'.UniqueIds) : sv.Issued e := by
  intro m hissues hopen row hrow
  cases h with
  | keep hnot _ _ _ => exact absurd hissues (hnot m)
  | lose hclosed _ _ _ _ =>
      rw [hopen] at hclosed
      cases hclosed
  | restart hevent _ _ =>
      obtain ⟨⟨s, out, hstep⟩, -⟩ := hissues
      rw [hevent] at hstep
      cases hstep
  | @insert m' a p hins _ haccounts hlast =>
      by_contra hlt
      obtain ⟨i, hi⟩ := List.mem_iff_getElem?.mp hrow
      have hid := hs.ids i row hi
      have hi' : i < sv.accounts.length := (List.getElem?_eq_some_iff.mp hi).1
      have hpos := hs.sound.counter
      -- the row whose id is issued again
      have hlt' : sv.lastId.toInt.toNat < sv.accounts.length := by omega
      have hold := List.getElem?_eq_getElem hlt'
      have hmem := List.mem_of_getElem? hold
      have holdId := hs.ids _ _ hold
      have hsucc := toInt_succ hpos hins.counter
      have hsame : sv.accounts[sv.lastId.toInt.toNat].loginId = sv.lastId + 1 := by
        rw [← Int32.toInt_inj, holdId, hsucc]
        omega
      refine hunique.ids _ (haccounts ▸ List.mem_append_left _ hmem) ⟨a, sv.lastId + 1, p⟩
        (haccounts ▸ List.mem_append_right _ (List.mem_singleton_self _)) ?_ hsame
      exact hins.not_mem hs.sound _ hmem

end Numbered

/-! ## Every life of a database -/

theorem numbered_first (hE : E.Lawful) (opened : Bool) (clientIds : ConnectionId → Identifier) :
    (first E opened clientIds).Numbered := by
  have hempty : (first E opened clientIds).accounts = [] := hE.logins_empty
  refine ⟨soundAccounts_first hE opened clientIds, ?_, fun _ => Int.natCast_nonneg _⟩
  rw [hempty]
  intro i row hrow
  cases hrow

theorem lifeStep_deterministic (sv : Server (sqlDatabase E)) (e : LifeEvent)
    (sv₁ sv₂ : Server (sqlDatabase E)) (h₁ : Guarded Orderly (LifeStep E) sv e sv₁)
    (h₂ : Guarded Orderly (LifeStep E) sv e sv₂) : sv₁ = sv₂ := by
  cases e with
  | step e out => exact step_deterministic h₁.2 h₂.2
  | restart opened clientIds => exact h₁.2.trans h₂.2.symm

/-- **Ids over the life of a database.**  In an orderly life that starts with an
empty table the ids are unique in every state if and only if every id is issued by
the process that issued all ids in the table. -/
theorem uniqueIds_iff_guarded (hE : E.Lawful) {opened : Bool}
    {clientIds : ConnectionId → Identifier} {events : List LifeEvent}
    {sv : Server (sqlDatabase E)}
    (h : Run (Guarded Orderly (LifeStep E)) (first E opened clientIds) events sv) :
    (∀ events₁ events₂ sv₁, events = events₁ ++ events₂ →
        Run (Guarded Orderly (LifeStep E)) (first E opened clientIds) events₁ sv₁ →
        sv₁.UniqueIds) ↔
      Run (Guarded Issued (Guarded Orderly (LifeStep E))) (first E opened clientIds) events sv :=
  Run.always_iff_guarded lifeStep_deterministic
    (fun _ _ _ hstep hs hissued => numbered_effect (accountEffect_of_step hE hstep) hs hissued)
    (fun _ _ _ hstep hs hunique => issued_of_uniqueIds (accountEffect_of_step hE hstep) hs hunique)
    (fun _ hs => hs.uniqueIds) h (numbered_first hE opened clientIds)

/-- Two accounts are registered in one process. -/
theorem uniqueIds_iff_guarded_two :
    ∃ (events : List LifeEvent) (sv : Server (sqlDatabase memorySqlite)),
      Run (Guarded Orderly (LifeStep memorySqlite)) (first memorySqlite true fun _ => 0) events sv ∧
      sv.accounts.length = 2 ∧ sv.UniqueIds := by
  let sv : Server (sqlDatabase memorySqlite) := first memorySqlite true fun _ => 0
  let m₁ : RegRequest := ⟨ascii "u", ascii "pw"⟩
  let m₂ : RegRequest := ⟨ascii "v", ascii "pw"⟩
  have hu : double (ascii "u") = m₁.login := by decide
  have hv : double (ascii "v") = m₂.login := by decide
  have hpw : double (ascii "pw") = m₁.password := by decide
  have hempty : sv.accounts = [] := rfl
  obtain ⟨sv₁, hstep₁, hopen₁, haccounts₁, hlast₁⟩ :=
    exists_register memorySqlite_lawful (rfl : sv.database.isOpen = true) 1 hu hpw (by decide)
      (by decide) rfl
  rw [hempty, List.nil_append] at haccounts₁
  have hnew : Storage.lastId (sv₁.accounts.filter (·.login = ascii "v")) = -1 := by
    rw [haccounts₁]
    decide
  obtain ⟨sv₂, hstep₂, -, haccounts₂, -⟩ :=
    exists_register memorySqlite_lawful hopen₁ 2 hv hpw (by decide) (by decide) hnew
  have hord₁ : Guarded Orderly (LifeStep memorySqlite) sv _ sv₁ :=
    ⟨orderly_register (by decide) (by decide) (by decide), hstep₁⟩
  have hord₂ : Guarded Orderly (LifeStep memorySqlite) sv₁ _ sv₂ :=
    ⟨orderly_register (by rw [hlast₁]; decide) (by decide) (by decide), hstep₂⟩
  have hissued₁ : ∀ e, sv.Issued e :=
    fun _ _ _ _ row hrow => absurd (hempty ▸ hrow) List.not_mem_nil
  have hissued₂ : ∀ e, sv₁.Issued e := by
    intro _ _ _ _ row hrow
    rw [haccounts₁, List.mem_singleton] at hrow
    rw [hrow, hlast₁]
  have hrun := Run.cons hord₁ (.single hord₂)
  refine ⟨_, sv₂, hrun, by rw [haccounts₂, haccounts₁]; rfl, ?_⟩
  exact (uniqueIds_iff_guarded memorySqlite_lawful hrun).mpr
    (.cons ⟨hissued₁ _, hord₁⟩ (.single ⟨hissued₂ _, hord₂⟩)) _ [] sv₂ (List.append_nil _).symm hrun

/-- An account is registered before a restart and another one after it: both get
the id 1. -/
theorem not_uniqueIds_restart :
    ¬ ∀ (clientIds : ConnectionId → Identifier) (events : List LifeEvent)
        (sv : Server (sqlDatabase memorySqlite)),
      Run (LifeStep memorySqlite) (first memorySqlite true clientIds) events sv → sv.UniqueIds := by
  intro h
  let sv : Server (sqlDatabase memorySqlite) := first memorySqlite true fun _ => 0
  let m₁ : RegRequest := ⟨ascii "u", ascii "pw"⟩
  let m₂ : RegRequest := ⟨ascii "v", ascii "pw"⟩
  have hu : double (ascii "u") = m₁.login := by decide
  have hv : double (ascii "v") = m₂.login := by decide
  have hpw : double (ascii "pw") = m₁.password := by decide
  have hempty : sv.accounts = [] := rfl
  obtain ⟨sv₁, hstep₁, -, haccounts₁, -⟩ :=
    exists_register memorySqlite_lawful (rfl : sv.database.isOpen = true) 1 hu hpw (by decide)
      (by decide) rfl
  rw [hempty, List.nil_append] at haccounts₁
  let sv₂ := sv₁.restart true fun _ => 0
  have haccounts₂ : sv₂.accounts = sv₁.accounts := rfl
  have hnew : Storage.lastId (sv₂.accounts.filter (·.login = ascii "v")) = -1 := by
    rw [haccounts₂, haccounts₁]
    decide
  obtain ⟨sv₃, hstep₃, -, haccounts₃, -⟩ :=
    exists_register memorySqlite_lawful (rfl : sv₂.database.isOpen = true) 2 hv hpw (by decide)
      (by decide) hnew
  rw [haccounts₂, haccounts₁] at haccounts₃
  have hlife₁ : LifeStep memorySqlite sv (.step _ _) sv₁ := hstep₁
  have hlife₂ : LifeStep memorySqlite sv₁ (.restart true fun _ => 0) sv₂ := rfl
  have hlife₃ : LifeStep memorySqlite sv₂ (.step _ _) sv₃ := hstep₃
  have hunique := h _ _ _ (.cons hlife₁ (.cons hlife₂ (.single hlife₃)))
  have hfirst : (⟨ascii "u", 1, ascii "pw"⟩ : LoginsRow) ∈ sv₃.accounts := by
    rw [haccounts₃]
    exact List.mem_cons_self
  have hsecond : (⟨ascii "v", 1, ascii "pw"⟩ : LoginsRow) ∈ sv₃.accounts := by
    rw [haccounts₃]
    exact List.mem_cons_of_mem _ (List.mem_singleton_self _)
  exact hunique.ids _ hfirst _ hsecond (by decide) rfl

end Server

end AppChat.Connection
