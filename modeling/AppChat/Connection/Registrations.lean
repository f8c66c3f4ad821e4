/-
  `Connection.Registrations`: is a login registered at most once?

  `do_registration` asks for the login and adds it later, and the table has no
  unique constraint.  Nothing goes wrong as long as the answer still holds when
  the row is added.
-/
import AppChat.Connection.Responses

set_option autoImplicit false

namespace AppChat.Connection

open Foundation Foundation.SqlText Storage Serialize

/-! ## The condition -/

section Guard

variable {E : Sqlite}

/-- The handlers read their own values, the counter does not overflow, and a login
that is added still has no id. -/
def StillNew (σ : Shared (sqlDatabase E)) (record : Record (sqlDatabase E)) (a : HandlerAct) :
    Prop :=
  ReadsOwn σ record a ∧
    match a with
    | .generateClientId => σ.server.lastId.toInt < 2 ^ 31 - 1
    | .addLogins login _ _ => σ.server.database.getLoginid login = -1
    | _ => True

instance (σ : Shared (sqlDatabase E)) (record : Record (sqlDatabase E)) (a : HandlerAct) :
    Decidable (StillNew σ record a) :=
  match a with
  | .generateClientId => inferInstanceAs (Decidable (_ ∧ _ < _))
  | .addLogins _ _ _ => inferInstanceAs (Decidable (_ ∧ _ = _))
  | .setLogin _ _ | .setPassword _ _ | .setClientId _ _ | .getLogin _ | .getPassword _
  | .getClientId _ | .getRoomId _ | .checkClient _ _ | .getLoginid _ | .joinRoom _ _ | .post _
  | .freeConnection _ => inferInstanceAs (Decidable (_ ∧ True))

/-! ## What an action does to the accounts -/

variable {σ σ' : Shared (sqlDatabase E)} {record : Record (sqlDatabase E)} {a : HandlerAct}
  {r : a.Res}

/-- Only `generate_client_id` touches the counter. -/
theorem lastId_exec (hgenerate : a ≠ .generateClientId) (h : σ.exec a = some (σ', r)) :
    σ'.server.lastId = σ.server.lastId := by
  cases a with
  | generateClientId => exact absurd rfl hgenerate
  | checkClient login password =>
      obtain ⟨clientId, -, heq⟩ := Option.map_eq_some_iff.mp h
      cases heq
      rfl
  | addLogins login clientId password =>
      obtain ⟨db, -, heq⟩ := Option.map_eq_some_iff.mp h
      cases heq
      rfl
  | joinRoom s roomId =>
      obtain ⟨⟨chat, flag, deliveries⟩, -, heq⟩ := Option.map_eq_some_iff.mp h
      cases heq
      split <;> rfl
  | _ =>
      cases h
      rfl

/-- A login without an id has no row. -/
theorem Server.SoundAccounts.login_ne {sv : Server (sqlDatabase E)} (hE : E.Lawful)
    (hs : sv.SoundAccounts) (hopen : sv.database.isOpen = true) {login v : Bytes}
    (hv : double v = login) (hzero : 0 ∉ v) (hnew : sv.database.getLoginid login = -1) :
    ∀ row ∈ sv.accounts, row.login ≠ v := by
  intro row hrow hlogin
  rw [getLoginid_of_bodies hE hopen hv hzero] at hnew
  have hmem : row ∈ (E.logins sv.database.store).filter (·.login = v) :=
    List.mem_filter.mpr ⟨hrow, decide_eq_true hlogin⟩
  refine Server.lastId_ne_minusOne (List.ne_nil_of_mem hmem) ?_ hnew
  intro other hother
  exact hs.positive other (List.mem_of_mem_filter hother)

end Guard

theorem note_generated {D : DatabaseOps} {σ : Shared D} {record : Record D} {a : HandlerAct}
    {r : a.Res} (hgenerate : a ≠ .generateClientId) :
    (record.note σ a r).generated = record.generated := by
  cases a with
  | generateClientId => exact absurd rfl hgenerate
  | joinRoom s roomId =>
      simp only [Record.note]
      split <;> rfl
  | _ => rfl

theorem double_injective {a b : Bytes} (h : double a = double b) : a = b := by
  rw [← Option.some.injEq, ← undouble_double a, h, undouble_double]

/-! ## The invariant -/

section Once

variable {E : Sqlite}

/-- The logins that the handlers have added. -/
def addedLogins (threads : List (HandlerThread (sqlDatabase E))) : List Bytes :=
  threads.filterMap fun thread => thread.record.added.map (·.login)

/-- The accounts are sound, the ids generated are positive, and the rows the
handlers have added are there and are of different logins. -/
structure AddedOnce (p : Handlers (sqlDatabase E)) : Prop where
  accounts : p.shared.server.SoundAccounts
  generated : ∀ thread ∈ p.threads, ∀ clientId, thread.record.generated = some clientId →
    0 < clientId.toInt
  rows : RowsKept p
  nodup : (addedLogins p.threads).Nodup

theorem mem_addedLogins {threads : List (HandlerThread (sqlDatabase E))} {login : Bytes} :
    login ∈ addedLogins threads ↔
      ∃ thread ∈ threads, ∃ added, thread.record.added = some added ∧ added.login = login := by
  simp [addedLogins]

section Step

variable {σ σ' : Shared (sqlDatabase E)} {before after : List (HandlerThread (sqlDatabase E))}
  {task : Job} {a : HandlerAct} {next : a.Res → HandlerProgram Unit}
  {record : Record (sqlDatabase E)} {r : a.Res}

/-- An action other than `add_logins` keeps the accounts sound. -/
theorem soundAccounts_exec (hE : E.Lawful) (hguard : StillNew σ record a)
    (hexec : σ.exec a = some (σ', r))
    (hadd : ∀ login clientId password, a ≠ .addLogins login clientId password)
    (hs : σ.server.SoundAccounts) : σ'.server.SoundAccounts := by
  have haccounts : σ'.server.accounts = σ.server.accounts := by
    rw [Server.accounts, database_exec hE hadd hexec]
    rfl
  refine hs.of_accounts haccounts ?_
  rcases eq_or_ne a .generateClientId with rfl | hgenerate
  · cases hexec
    have hsucc := Server.toInt_succ hs.counter hguard.2
    show 0 ≤ (σ.server.lastId + 1).toInt
    rw [hsucc]
    exact Int.le_add_one hs.counter
  · rw [lastId_exec hgenerate hexec]
    exact hs.counter

/-- The ids in the records stay positive. -/
theorem generated_exec (hguard : StillNew σ record a) (hexec : σ.exec a = some (σ', r))
    (hs : σ.server.SoundAccounts)
    (h : ∀ clientId, record.generated = some clientId → 0 < clientId.toInt)
    {clientId : Identifier} (hnote : (record.note σ a r).generated = some clientId) :
    0 < clientId.toInt := by
  rcases eq_or_ne a .generateClientId with rfl | hgenerate
  · cases hexec
    cases hnote
    rw [Server.toInt_succ hs.counter hguard.2]
    exact Int.lt_add_one_of_le hs.counter
  · rw [note_generated hgenerate] at hnote
    exact h clientId hnote

/-- A guarded `add_logins` adds a login that no handler has added before. -/
theorem addedOnce_addLogins (hE : E.Lawful) {login password : Bytes} {clientId : Identifier}
    {u : Unit}
    {next : Unit → HandlerProgram Unit}
    (hguard : StillNew σ record (.addLogins login clientId password))
    (hexec : σ.exec (.addLogins login clientId password) = some (σ', u))
    (hgenerated : record.generated = some clientId) (hnone : record.added = none)
    (h : AddedOnce (⟨σ, before ++ ⟨task, .act (.addLogins login clientId password) next, record⟩ ::
      after⟩ : Handlers (sqlDatabase E))) :
    σ'.server.SoundAccounts ∧
      (addedLogins (before ++
        ⟨task, next u, record.note σ (.addLogins login clientId password) u⟩ :: after)).Nodup := by
  obtain ⟨v, p, hv, hzero, -, hopen, haccounts⟩ := accounts_addLogins hE hguard.1 hexec
  have hne := h.accounts.login_ne hE hguard.1.1 hv hzero hguard.2
  constructor
  · refine ⟨?_, ?_, ?_⟩
    · rw [lastId_exec (by simp) hexec]
      exact h.accounts.counter
    · intro row hrow
      rw [haccounts, List.mem_append, List.mem_singleton] at hrow
      rcases hrow with hold | rfl
      · exact h.accounts.positive row hold
      · exact h.generated ⟨task, .act (.addLogins login clientId password) next, record⟩ (by simp)
          clientId hgenerated
    · rw [haccounts, List.map_append, List.map_singleton]
      refine List.nodup_append'.mpr ⟨h.accounts.nodup, List.nodup_singleton _, ?_⟩
      intro other hold hnew
      rw [List.mem_singleton] at hnew
      obtain ⟨row, hrow, hlogin⟩ := List.mem_map.mp hold
      exact hne row hrow (hlogin.trans hnew)
  · have hothers : login ∉ addedLogins (before ++ after) := by
      rw [mem_addedLogins]
      rintro ⟨thread, hthread, added, hadded, hlogin⟩
      have hmem : thread ∈ before ++
          ⟨task, .act (.addLogins login clientId password) next, record⟩ :: after := by
        rcases List.mem_append.mp hthread with hbefore | hafter
        · exact List.mem_append_left _ hbefore
        · exact List.mem_append_right _ (List.mem_cons_of_mem _ hafter)
      obtain ⟨row, hrow, hsame, -⟩ := h.rows thread hmem added hadded
      have hrowLogin : row.login = v := double_injective (by rw [hsame, hlogin, hv])
      exact hne row hrow hrowLogin
    have hnodup := h.nodup
    simp only [addedLogins, List.filterMap_append, List.filterMap_cons, hnone, Option.map_none,
      Record.note, Option.map_some] at hnodup hothers ⊢
    exact List.nodup_middle.mpr (List.nodup_cons.mpr ⟨hothers, hnodup⟩)

end Step

theorem addedOnce_step (hE : E.Lawful) {p p' : Handlers (sqlDatabase E)} {e : PoolEvent Job}
    (hstep : Guarded (Machine.Meets StillNew) (handlers (sqlDatabase E)).Step p e p')
    (hsound : (handlers (sqlDatabase E)).Sound (promise _) Job.Answers p) (h : AddedOnce p) :
    AddedOnce p' := by
  have hrows : RowsKept p' := by
    refine rowsKept_step hE ⟨?_, hstep.2⟩ h.rows
    exact hstep.1.mono fun _ _ _ hguard => hguard.1
  obtain ⟨hmeets, hstep⟩ := hstep
  cases hstep with
  | spawn =>
      refine ⟨h.accounts, ?_, hrows, ?_⟩
      · intro thread hthread
        rcases List.mem_append.mp hthread with hold | hnew
        · exact h.generated thread hold
        · rw [List.mem_singleton] at hnew
          subst hnew
          intro clientId hnone
          cases hnone
      · have hnodup := h.nodup
        simpa [addedLogins, Machine.begin, handlers] using hnodup
  | @step σ σ' before after task a next record r hexec =>
      have hguard := hmeets.guard
      have hrequires := Machine.Sound.requires hsound
      have hgenerated : ∀ thread ∈ before ++ ⟨task, next r, record.note σ a r⟩ :: after,
          ∀ clientId, thread.record.generated = some clientId → 0 < clientId.toInt := by
        intro thread hthread clientId
        rcases List.mem_append.mp hthread with hbefore | hrest
        · exact h.generated thread (List.mem_append_left _ hbefore) clientId
        · rcases List.mem_cons.mp hrest with rfl | hafter
          · exact generated_exec hguard hexec h.accounts
              (h.generated ⟨task, .act a next, record⟩ (by simp))
          · exact h.generated thread
              (List.mem_append_right _ (List.mem_cons_of_mem _ hafter)) clientId
      by_cases hadd : ∃ login clientId password, a = .addLogins login clientId password
      · obtain ⟨login, clientId, password, rfl⟩ := hadd
        obtain ⟨-, hid, hnone⟩ := hrequires
        obtain ⟨haccounts, hnodup⟩ := addedOnce_addLogins hE hguard hexec hid hnone h
        exact ⟨haccounts, hgenerated, hrows, hnodup⟩
      · have hother : ∀ login clientId password, a ≠ .addLogins login clientId password :=
          fun login clientId password heq => hadd ⟨login, clientId, password, heq⟩
        refine ⟨soundAccounts_exec hE hguard hexec hother h.accounts, hgenerated, hrows, ?_⟩
        have hnodup := h.nodup
        have hsame := @note_added _ σ record a r hother
        simp only [addedLogins, List.filterMap_append, List.filterMap_cons] at hnodup ⊢
        rw [show ((handlers (sqlDatabase E)).note σ record a r).added = record.added from hsame]
        exact hnodup

end Once

/-! ## At most one answer is OK -/

/-- A registration response with the status OK. -/
def Output.isRegistered : Output → Bool
  | .regResponse _ clientId => clientId != -1
  | _ => false

/-- The login a handler was asked to register, once for each OK it has posted. -/
def okLogins {D : DatabaseOps} (thread : HandlerThread D) : List Bytes :=
  match thread.task with
  | .registration _ (.registerRequest m) =>
      (thread.record.posted.filter Output.isRegistered).map fun _ => m.login
  | _ => []

/-- A handler answers OK only for the row it has added. -/
theorem okLogins_sublist {D : DatabaseOps} {p : Handlers D}
    (hsound : (handlers D).Sound (promise D) Job.Answers p) {thread : HandlerThread D}
    (hthread : thread ∈ p.threads) :
    (okLogins thread).Sublist (thread.record.added.map (·.login)).toList := by
  have hwp := hsound thread hthread
  obtain ⟨task, rest, record⟩ := thread
  cases rest with
  | act a next =>
      -- nothing has been posted yet
      have hposted : record.posted = [] := hwp.1.1
      unfold okLogins
      split
      · simp [hposted]
      · simp
  | ret value =>
      have hanswers : task.Answers record := hwp
      unfold okLogins
      split
      · rename_i s m htask
        have htask : task = .registration s (.registerRequest m) := htask
        subst htask
        obtain ⟨clientId, hposted, hid⟩ := hanswers
        rcases hid with rfl | hadded
        · simp [hposted, Output.isRegistered]
        · rcases eq_or_ne clientId (-1) with rfl | hne
          · simp [hposted, Output.isRegistered]
          · have hok : Output.isRegistered (.regResponse s clientId) = true := bne_iff_ne.mpr hne
            simp [hposted, hadded, hok]
      · simp

theorem flatMap_sublist_filterMap {α β : Type} {f : α → List β} {g : α → Option β} {l : List α}
    (h : ∀ x ∈ l, (f x).Sublist (g x).toList) : (l.flatMap f).Sublist (l.filterMap g) := by
  induction l with
  | nil => exact List.Sublist.refl _
  | cons x l ih =>
      have hrest := ih fun y hy => h y (List.mem_cons_of_mem _ hy)
      have hx := h x (List.mem_cons_self ..)
      rw [List.flatMap_cons, List.filterMap_cons]
      cases hg : g x with
      | none =>
          rw [hg] at hx
          exact hx.append hrest
      | some y =>
          rw [hg] at hx
          exact hx.append hrest

/-- **A login is registered at most once.**  In every run in which the handlers read
what they have written and a login that is added still has no id, the table has one
row for a login at most, and one registration of it at most is answered OK. -/
theorem registered_once {E : Sqlite} (hE : E.Lawful) {opened : Bool}
    {clientIds : ConnectionId → Identifier} {before : List LifeEvent}
    {sv : Server (sqlDatabase E)} {es : List (PoolEvent Job)} {p : Handlers (sqlDatabase E)}
    (hbefore : Run (Guarded Server.Orderly (Server.LifeStep E)) (Server.first E opened clientIds)
      before sv)
    (h : Run (Guarded (Machine.Meets StillNew) (handlers (sqlDatabase E)).Step) ⟨⟨sv, []⟩, []⟩
      es p) :
    (p.shared.server.accounts.map (·.login)).Nodup ∧ (p.threads.flatMap okLogins).Nodup := by
  let Inv : Handlers (sqlDatabase E) → Prop := fun p =>
    (handlers (sqlDatabase E)).Sound (promise _) Job.Answers p ∧ AddedOnce p
  have hsv := Server.soundAccounts_of_run hE hbefore (Server.soundAccounts_first hE _ _)
  have hinit : Inv ⟨⟨sv, []⟩, []⟩ :=
    ⟨Machine.sound_init _, hsv, fun _ hthread => absurd hthread List.not_mem_nil,
      fun _ hthread => absurd hthread List.not_mem_nil, List.nodup_nil⟩
  have hend : Inv p := by
    refine h.invariant ?_ hinit
    rintro q e q' hstep ⟨hsound, honce⟩
    refine ⟨?_, addedOnce_step hE hstep hsound honce⟩
    exact Machine.sound_step wp_program
      (fun _ _ _ _ _ hguard => returns_of_readsOwn hguard.1) hstep hsound
  obtain ⟨hsound, honce⟩ := hend
  refine ⟨honce.accounts.nodup, ?_⟩
  exact honce.nodup.sublist (flatMap_sublist_filterMap fun _ => okLogins_sublist hsound)

/-- Two connections register two logins, interleaved. -/
theorem registered_once_two :
    ∃ (es : List (PoolEvent Job)) (p : Handlers (sqlDatabase memorySqlite)),
      Run (Guarded (Machine.Meets StillNew) (handlers (sqlDatabase memorySqlite)).Step)
        ⟨⟨Server.first memorySqlite true fun _ => 7, []⟩, []⟩ es p ∧
      p.threads.map (fun thread => thread.record.posted) =
        [[.regResponse 1 1], [.regResponse 2 2]] ∧
      (p.shared.server.accounts.map (·.login)).Nodup ∧ (p.threads.flatMap okLogins).Nodup := by
  let es : List (PoolEvent Job) :=
    [.spawn (.registration 1 (.registerRequest ⟨ascii "u", ascii "p"⟩)),
      .spawn (.registration 2 (.registerRequest ⟨ascii "v", ascii "q"⟩))] ++
      List.replicate 6 (.step 0) ++ List.replicate 6 (.step 1) ++
      List.replicate 8 (.step 0) ++ List.replicate 8 (.step 1)
  have hend : (es.foldlM ((handlers (sqlDatabase memorySqlite)).applyGuarded StillNew)
      ⟨⟨Server.first memorySqlite true fun _ => 7, []⟩, []⟩).map
        (fun p => p.threads.map fun thread => thread.record.posted) =
        some [[.regResponse 1 1], [.regResponse 2 2]] := by
    decide +kernel
  obtain ⟨p, hp, hposted⟩ := Option.map_eq_some_iff.mp hend
  have hrun := Machine.run_of_applyGuarded _ hp
  exact ⟨es, p, hrun, hposted, registered_once memorySqlite_lawful (.nil _) hrun⟩

/-- Two connections register the same login: both look before either adds, and both
are answered OK. -/
theorem not_registered_once_two :
    ¬ ∀ (es : List (PoolEvent Job)) (p : Handlers (sqlDatabase memorySqlite)),
      Run (handlers (sqlDatabase memorySqlite)).Step
        ⟨⟨Server.first memorySqlite true fun _ => 7, []⟩, []⟩ es p →
      (p.shared.server.accounts.map (·.login)).Nodup ∧ (p.threads.flatMap okLogins).Nodup := by
  intro h
  let look : List (PoolEvent Job) := List.replicate 6 (.step 0) ++ List.replicate 6 (.step 1)
  let add : List (PoolEvent Job) := List.replicate 8 (.step 0) ++ List.replicate 8 (.step 1)
  let es : List (PoolEvent Job) :=
    [.spawn (.registration 1 (.registerRequest ⟨ascii "u", ascii "p"⟩)),
      .spawn (.registration 2 (.registerRequest ⟨ascii "u", ascii "q"⟩))] ++ look ++ add
  have hlogins : (es.foldlM (handlers (sqlDatabase memorySqlite)).apply
      ⟨⟨Server.first memorySqlite true fun _ => 7, []⟩, []⟩).map
        (fun p => p.shared.server.accounts.map (·.login)) = some [ascii "u", ascii "u"] := by
    decide +kernel
  obtain ⟨p, hp, hboth⟩ := Option.map_eq_some_iff.mp hlogins
  have hnodup := (h es p ((Run.iff_foldlM.mpr hp).mono fun _ _ _ => Machine.step_of_apply _)).1
  rw [hboth] at hnodup
  simp at hnodup

end AppChat.Connection
