/-
  `Connection.Delivery`: is a joined connection served exactly once?

  Every join is answered OK, whether or not it put the connection into the
  channel.  The runs that serve every joined connection exactly once are those in
  which each join and each free meets a condition on the entries it finds.
-/
import AppChat.Connection.Subscriptions

set_option autoImplicit false

namespace AppChat.Connection

open Foundation Storage Serialize

/-! ## Who has joined -/

/-- Connections with the rooms they were told they have joined. -/
abbrev Joined := Set (ConnectionId × Identifier)

/-- A response OK adds a pair; freeing a connection removes its pairs. -/
def Joined.track (joined : Joined) (label : Event × List Output) : Joined :=
  {p | (p ∈ joined ∧ label.1.frees ≠ some p.1) ∨ .joinRoomResponse p.1 p.2 true ∈ label.2}

namespace Server

variable {D : DatabaseOps}

/-- A step of the process, with the pairs kept along. -/
def TrackedStep (D : DatabaseOps) (st : Server D × Joined) (label : Event × List Output)
    (st' : Server D × Joined) : Prop :=
  Step D st.1 label st'.1 ∧ st'.2 = st.2.track label

/-- A message sent to a room now would be handed to each connection that has
joined the room exactly once. -/
def Served (st : Server D × Joined) : Prop :=
  ∀ p ∈ st.2, ∀ msg : TextSendData, msg.roomId = p.2 →
    (st.1.chat.manager.sendToChannel msg).2.count ⟨p.1, msg⟩ = 1

/-- The room holds the connection under exactly one key. -/
def Once (sv : Server D) (s : ConnectionId) (r : Identifier) : Prop :=
  ∃ c, sv.Holds r c s ∧ ∀ c', sv.Holds r c' s → c' = c

theorem count_sendToChannel_eq_one_iff (sv : Server D) (s : ConnectionId) (msg : TextSendData) :
    (sv.chat.manager.sendToChannel msg).2.count ⟨s, msg⟩ = 1 ↔ sv.Once s msg.roomId := by
  unfold ChannelsManager.sendToChannel
  cases hroom : sv.chat.manager.channels.lookup msg.roomId with
  | none => simp [Once, ChannelsManager.Holds, hroom]
  | some ch =>
      have hinj : Function.Injective fun sub : ConnectionId => (⟨sub, msg⟩ : Delivery) :=
        fun a b h => congrArg Delivery.recipient h
      have hcount : (ch.notification msg).2.count ⟨s, msg⟩ = ch.subscribers.values.count s :=
        List.count_map_of_injective _ _ hinj s
      simp only [hcount, UnorderedMap.count_values_eq_one_iff, Once, ChannelsManager.Holds, hroom,
        Option.some.injEq, exists_eq_left']

theorem served_iff {st : Server D × Joined} :
    Served st ↔ ∀ p ∈ st.2, st.1.Once p.1 p.2 := by
  constructor
  · intro h p hp
    exact (count_sendToChannel_eq_one_iff st.1 p.1 ⟨p.2, [], []⟩).mp (h p hp _ rfl)
  · intro h p hp msg hmsg
    rw [count_sendToChannel_eq_one_iff, hmsg]
    exact h p hp

/-! ## The condition -/

/-- What a join and a free must find.  When `s` joins a room, its client id is a
key of the room just when the room already holds `s` once, and is free just when
the room does not hold `s`.  When `t` is freed, every other connection that has
joined a room has an entry there under another client id. -/
structure Fair (st : Server D × Joined) (label : Event × List Output) : Prop where
  join : ∀ s m, label.1 = .handle s ⟨.doJoinRoom, .joinRoomRequest m⟩ →
    (st.1.chat.manager.Subscribed (st.1.connections s).clientId m.roomId ∧ st.1.Once s m.roomId) ∨
      (¬ st.1.chat.manager.Subscribed (st.1.connections s).clientId m.roomId ∧
        ∀ c, ¬ st.1.Holds m.roomId c s)
  free : ∀ t, label.1.frees = some t → ∀ p ∈ st.2, p.1 ≠ t →
    ∃ c, c ≠ (st.1.connections t).clientId ∧ st.1.Holds p.2 c p.1

/-- The states the runs are about. -/
def Sound (st : Server D × Joined) : Prop := st.1.Consistent ∧ Served st

/-! ## One step -/

section Join

variable {sv : Server D} {s : ConnectionId} {r : Identifier} {result : JoinResult D}

/-- The entries after a join. -/
theorem once_join_iff
    (h : sv.chat.manager.join sv.view s r sv.chat.db = some result) (sv' : Server D)
    (hsv' : sv'.chat.manager = result.manager) :
    sv'.Once s r ↔
      (sv.chat.manager.Subscribed (sv.connections s).clientId r ∧ sv.Once s r) ∨
        (¬ sv.chat.manager.Subscribed (sv.connections s).clientId r ∧ ∀ c, ¬ sv.Holds r c s) := by
  have hholds : ∀ c, sv'.Holds r c s ↔
      sv.Holds r c s ∨ (c = (sv.connections s).clientId ∧ ¬ sv.chat.manager.Subscribed c r) := by
    intro c
    rw [Holds, hsv', ChannelsManager.holds_join h]
    simp [view]
  by_cases hkey : sv.chat.manager.Subscribed (sv.connections s).clientId r
  · -- nothing is added
    have hsame : ∀ c, sv'.Holds r c s ↔ sv.Holds r c s := by
      intro c
      rw [hholds, or_iff_left]
      rintro ⟨rfl, hfree⟩
      exact hfree hkey
    simp only [Once, hsame, hkey, true_and, not_true_eq_false, false_and, or_false]
  · -- the key of `s` is added
    have hnew : sv'.Holds r (sv.connections s).clientId s := (hholds _).mpr (Or.inr ⟨rfl, hkey⟩)
    simp only [hkey, false_and, not_false_eq_true, true_and, false_or]
    constructor
    · rintro ⟨c, -, honly⟩ c' hc'
      have hid := honly _ hnew
      have hold := honly _ ((hholds c').mpr (Or.inl hc'))
      rw [← hid] at hold
      rw [hold] at hc'
      exact hkey (ChannelsManager.subscribed_iff_exists_holds.mpr ⟨s, hc'⟩)
    · intro hnone
      refine ⟨_, hnew, ?_⟩
      intro c' hc'
      rcases (hholds c').mp hc' with hold | ⟨hid, -⟩
      · exact absurd hold (hnone c')
      · exact hid

/-- A join changes nothing for another connection or in another room. -/
theorem once_join_other
    (h : sv.chat.manager.join sv.view s r sv.chat.db = some result) (sv' : Server D)
    (hsv' : sv'.chat.manager = result.manager) {p : ConnectionId × Identifier}
    (hp : p ≠ (s, r)) : sv'.Once p.1 p.2 ↔ sv.Once p.1 p.2 := by
  have hsame : ∀ c, sv'.Holds p.2 c p.1 ↔ sv.Holds p.2 c p.1 := by
    intro c
    rw [Holds, hsv', ChannelsManager.holds_join h, or_iff_left]
    rintro ⟨hroom, -, hsub, -⟩
    exact hp (Prod.ext hsub hroom)
  simp only [Once, hsame]

end Join

/-- Freeing `t` leaves a connection its one entry just when that entry is under
another client id. -/
theorem once_free_iff {sv : Server D} (hm : sv.Consistent) (t : ConnectionId)
    {p : ConnectionId × Identifier} (hp : sv.Once p.1 p.2) :
    (sv.freeConnection t).1.Once p.1 p.2 ↔
      ∃ c, c ≠ (sv.connections t).clientId ∧ sv.Holds p.2 c p.1 := by
  unfold Once
  simp only [holds_freeConnection hm t]
  constructor
  · rintro ⟨c, ⟨hheld, hne⟩, -⟩
    exact ⟨c, hne, hheld⟩
  · rintro ⟨c, hne, hheld⟩
    obtain ⟨c₀, -, honly⟩ := hp
    refine ⟨c, ⟨hheld, hne⟩, ?_⟩
    intro c' hc'
    rw [honly c' hc'.1, honly c hheld]

/-- A step that neither joins nor frees is fair, and keeps the pairs and the
entries. -/
theorem served_iff_fair_of_unchanged {sv sv' : Server D} {joined : Joined}
    {label : Event × List Output} (hserved : Served (sv, joined))
    (hholds : ∀ r c t, sv'.Holds r c t ↔ sv.Holds r c t)
    (hjoin : ∀ s m, label.1 ≠ .handle s ⟨.doJoinRoom, .joinRoomRequest m⟩)
    (hfrees : label.1.frees = none) (hout : ∀ s r, .joinRoomResponse s r true ∉ label.2) :
    Served (sv', joined.track label) ↔ Fair (sv, joined) label := by
  have hjoined : joined.track label = joined := by
    ext p
    simp [Joined.track, hfrees, hout]
  have hkept : Served (sv', joined) := by
    rw [served_iff] at hserved ⊢
    simpa only [Once, hholds] using hserved
  rw [hjoined]
  refine iff_of_true hkept ⟨?_, ?_⟩
  · intro s m h
    exact absurd h (hjoin s m)
  · intro t h
    rw [hfrees] at h
    cases h

theorem served_iff_fair_of_join {sv sv' : Server D} {joined : Joined} {s : ConnectionId}
    {m : JoinRoomRequest} {result : JoinResult D} {out : List Output}
    (hserved : Served (sv, joined))
    (h : sv.chat.manager.join sv.view s m.roomId sv.chat.db = some result)
    (hsv' : sv'.chat.manager = result.manager)
    (hout : ∀ t r, .joinRoomResponse t r true ∈ out ↔ t = s ∧ r = m.roomId) :
    Served (sv', joined.track (.handle s ⟨.doJoinRoom, .joinRoomRequest m⟩, out)) ↔
      Fair (sv, joined) (.handle s ⟨.doJoinRoom, .joinRoomRequest m⟩, out) := by
  have hjoined : ∀ p, p ∈ joined.track (.handle s ⟨.doJoinRoom, .joinRoomRequest m⟩, out) ↔
      p ∈ joined ∨ p = (s, m.roomId) := by
    intro p
    simp [Joined.track, Event.frees, hout, Prod.ext_iff]
  have hfair : Fair (sv, joined) (.handle s ⟨.doJoinRoom, .joinRoomRequest m⟩, out) ↔
      sv'.Once s m.roomId := by
    rw [once_join_iff h sv' hsv']
    constructor
    · intro hfair
      exact hfair.join s m rfl
    · intro hcond
      refine ⟨?_, fun t ht => by cases ht⟩
      rintro s' m' hevent
      cases hevent
      exact hcond
  rw [hfair, served_iff]
  rw [served_iff] at hserved
  constructor
  · intro hall
    exact hall (s, m.roomId) ((hjoined _).mpr (Or.inr rfl))
  · intro honce p hp
    by_cases hself : p = (s, m.roomId)
    · rw [hself]
      exact honce
    · rcases (hjoined p).mp hp with hold | hnew
      · exact (once_join_other h sv' hsv' hself).mpr (hserved p hold)
      · exact absurd hnew hself

theorem served_iff_fair_of_free {sv : Server D} {joined : Joined} {t : ConnectionId} {e : Event}
    {out : List Output} (hm : sv.Consistent) (hserved : Served (sv, joined))
    (hfrees : e.frees = some t) (hjoin : ∀ s m, e ≠ .handle s ⟨.doJoinRoom, .joinRoomRequest m⟩)
    (hout : ∀ s r, .joinRoomResponse s r true ∉ out) :
    Served ((sv.freeConnection t).1, joined.track (e, out)) ↔ Fair (sv, joined) (e, out) := by
  have hjoined : ∀ p, p ∈ joined.track (e, out) ↔ p ∈ joined ∧ p.1 ≠ t := by
    intro p
    simp [Joined.track, hfrees, hout, eq_comm]
  rw [served_iff]
  rw [served_iff] at hserved
  constructor
  · intro hall
    refine ⟨fun s m h => absurd h (hjoin s m), ?_⟩
    intro t' ht' p hp hne
    rw [hfrees, Option.some.injEq] at ht'
    subst ht'
    exact (once_free_iff hm t (hserved p hp)).mp (hall p ((hjoined p).mpr ⟨hp, hne⟩))
  · intro hfair p hp
    obtain ⟨hp, hne⟩ := (hjoined p).mp hp
    exact (once_free_iff hm t (hserved p hp)).mpr (hfair.free t hfrees p hp hne)

/-- A step from a sound state serves everyone exactly when it is fair. -/
theorem served_iff_fair {st st' : Server D × Joined} {label : Event × List Output}
    (h : TrackedStep D st label st') (hst : Sound st) : Served st' ↔ Fair st label := by
  obtain ⟨sv, joined⟩ := st
  obtain ⟨sv', joined'⟩ := st'
  obtain ⟨e, out⟩ := label
  obtain ⟨hstep, rfl⟩ := h
  obtain ⟨hm, hserved⟩ := hst
  cases effect_of_step hstep with
  | login _ =>
      exact served_iff_fair_of_unchanged hserved (fun _ _ _ => Iff.rfl) (by simp) rfl (by simp)
  | register _ _ =>
      exact served_iff_fair_of_unchanged hserved (fun _ _ _ => Iff.rfl) (by simp) rfl (by simp)
  | refuse _ =>
      exact served_iff_fair_of_unchanged hserved (fun _ _ _ => Iff.rfl) (by simp) rfl (by simp)
  | join hjoin => exact served_iff_fair_of_join hserved hjoin rfl (by simp)
  | text =>
      exact served_iff_fair_of_unchanged hserved
        (fun r c t => ChannelsManager.holds_sendToChannel _ _ r c t) (by simp) rfl (by simp)
  | free hfrees =>
      refine served_iff_fair_of_free hm hserved hfrees ?_ (by simp [freeConnection])
      rintro s m rfl
      cases hfrees
  | ignore hignored =>
      refine served_iff_fair_of_unchanged hserved (fun _ _ _ => Iff.rfl) ?_
        (Event.frees_of_ignored hignored) (by simp)
      rintro s m heq
      simp only at heq
      rw [heq] at hignored
      cases hignored

theorem sound_of_fair {st st' : Server D × Joined} {label : Event × List Output}
    (h : TrackedStep D st label st') (hst : Sound st) (hfair : Fair st label) : Sound st' :=
  ⟨consistent_effect (effect_of_step h.1) hst.1, (served_iff_fair h hst).mpr hfair⟩

/-! ## Every run -/

/-- The start of a process: nobody has joined. -/
def start (db : D.State) (ids : ConnectionId → Identifier) : Server D × Joined :=
  (init db ids, ∅)

theorem sound_start (db : D.State) (ids : ConnectionId → Identifier) :
    Sound (start db ids : Server D × Joined) :=
  ⟨ChannelsManager.represents_init.consistent, fun _ hp => absurd hp (Set.notMem_empty _)⟩

/-- Keeping the pairs restricts no run. -/
theorem exists_tracked_of_run {sv sv' : Server D} {labels : List (Event × List Output)}
    (h : Run (Step D) sv labels sv') (joined : Joined) :
    ∃ joined', Run (TrackedStep D) (sv, joined) labels (sv', joined') := by
  induction h generalizing joined with
  | nil sv => exact ⟨joined, .nil _⟩
  | cons hstep _ ih =>
      obtain ⟨joined', hrun⟩ := ih (joined.track _)
      exact ⟨joined', .cons ⟨hstep, rfl⟩ hrun⟩

theorem trackedStep_deterministic (st : Server D × Joined) (label : Event × List Output)
    (st₁ st₂ : Server D × Joined) (h₁ : TrackedStep D st label st₁)
    (h₂ : TrackedStep D st label st₂) : st₁ = st₂ :=
  Prod.ext (step_deterministic h₁.1 h₂.1) (h₁.2.trans h₂.2.symm)

/-- **Served exactly once.**  A run serves every joined connection exactly once in
each of its states if and only if each of its steps is fair. -/
theorem served_iff_guarded {db : D.State} {ids : ConnectionId → Identifier}
    {labels : List (Event × List Output)} {st : Server D × Joined}
    (h : Run (TrackedStep D) (start db ids) labels st) :
    (∀ labels₁ labels₂ st₁, labels = labels₁ ++ labels₂ →
        Run (TrackedStep D) (start db ids) labels₁ st₁ → Served st₁) ↔
      Run (Guarded Fair (TrackedStep D)) (start db ids) labels st := by
  exact Run.always_iff_guarded trackedStep_deterministic
    (fun _ _ _ hstep hst hfair => sound_of_fair hstep hst hfair)
    (fun _ _ _ hstep hst hserved => (served_iff_fair hstep hst).mp hserved)
    (fun _ hst => hst.2) h (sound_start db ids)

/-- One connection joins a room. -/
theorem served_iff_guarded_one :
    ∃ (labels : List (Event × List Output)) (st : Server (sqlDatabase memorySqlite) × Joined),
      Run (TrackedStep (sqlDatabase memorySqlite))
        (start (⟨true, memorySqlite.empty⟩ : Database memorySqlite) fun _ => 7) labels st ∧
      (1, 5) ∈ st.2 ∧ Served st := by
  obtain ⟨out, sv, hstep, hout, -⟩ := exists_first_join (fun _ => 7) 1 5
  let label : Event × List Output := (.handle 1 ⟨.doJoinRoom, .joinRoomRequest ⟨5⟩⟩, out)
  let st : Server (sqlDatabase memorySqlite) × Joined := (sv, Joined.track ∅ label)
  have htracked : TrackedStep (sqlDatabase memorySqlite)
      (start (⟨true, memorySqlite.empty⟩ : Database memorySqlite) fun _ => 7) label st :=
    ⟨hstep, rfl⟩
  have hfair : Fair
      (start (⟨true, memorySqlite.empty⟩ : Database memorySqlite) fun _ => 7 :
        Server (sqlDatabase memorySqlite) × Joined) label := by
    refine ⟨?_, fun t ht => by cases ht⟩
    intro s m _
    refine Or.inr ⟨?_, ?_⟩
    · rintro ⟨ch, hch, -⟩
      cases hch
    · rintro c ⟨ch, hch, -⟩
      cases hch
  have hguarded := Run.single (show Guarded Fair (TrackedStep _) _ label st from ⟨hfair, htracked⟩)
  exact ⟨[label], st, Run.single htracked, Or.inr hout,
    (served_iff_guarded (Run.single htracked)).mpr hguarded [label] [] st rfl
      (Run.single htracked)⟩

/-- Two sessions of one account join the same room: the second is told OK and
handed nothing. -/
theorem not_served_two_sessions :
    ¬ ∀ (db : Database memorySqlite) (ids : ConnectionId → Identifier)
        (labels : List (Event × List Output))
        (st : Server (sqlDatabase memorySqlite) × Joined),
      Run (TrackedStep (sqlDatabase memorySqlite)) (start db ids) labels st → Served st := by
  intro h
  let D := sqlDatabase memorySqlite
  let db : Database memorySqlite := ⟨true, ⟨[⟨ascii "u", 7, ascii "pw"⟩], []⟩⟩
  let m : InRequest := ⟨ascii "u", ascii "pw"⟩
  have hcheck : D.checkClient db m.login m.password = some 7 := by decide
  let sv₀ : Server D := init db fun _ => 0
  -- both log in
  let sv₁ := sv₀.setMembers 1
    { sv₀.connections 1 with login := m.login, password := m.password, clientId := 7 }
  let sv₂ := sv₁.setMembers 2
    { sv₁.connections 2 with login := m.login, password := m.password, clientId := 7 }
  have hstep₁ := step_of_effect (@Effect.login D sv₀ 1 m 7 hcheck)
  have hstep₂ := step_of_effect (@Effect.login D sv₁ 2 m 7 hcheck)
  -- both join room 5
  obtain ⟨result₃, hjoin₃, -⟩ :=
    (ChannelsManager.sql_join_returns_true_iff memorySqlite_lawful sv₂.view sv₂.chat.manager 1 5
      sv₂.chat.db).mpr (Or.inr fun _ row hrow => absurd hrow List.not_mem_nil)
  have hstep₃ := step_of_effect (@Effect.join D sv₂ 1 ⟨5⟩ result₃ hjoin₃)
  have hkey₃ : result₃.manager.Subscribed 7 5 :=
    (ChannelsManager.subscribed_join hjoin₃ 7 5).mpr (Or.inr ⟨rfl, rfl⟩)
  have hholds₃ : ∀ c, ¬ result₃.manager.Holds 5 c 2 := by
    intro c hheld
    rcases (ChannelsManager.holds_join hjoin₃ 5 c 2).mp hheld with ⟨ch, hch, -⟩ | ⟨-, -, hsub, -⟩
    · cases hch
    · exact absurd hsub (by decide)
  let sv₃ : Server D := ({ sv₂ with chat := ⟨result₃.manager, result₃.db⟩ }).setMembers 1
    { sv₂.connections 1 with busy := true, roomId := 5 }
  obtain ⟨result₄, hjoin₄, -⟩ :=
    (ChannelsManager.sql_join_returns_true_iff memorySqlite_lawful sv₃.view sv₃.chat.manager 2 5
      sv₃.chat.db).mpr (Or.inl (AList.lookup_isSome.mp (by
        obtain ⟨ch, hch, -⟩ := hkey₃
        exact Option.isSome_iff_exists.mpr ⟨ch, hch⟩)))
  have hstep₄ := step_of_effect (@Effect.join D sv₃ 2 ⟨5⟩ result₄ hjoin₄)
  -- nothing is added for the second connection
  have hholds₄ : ∀ c, ¬ result₄.manager.Holds 5 c 2 := by
    intro c hheld
    rcases (ChannelsManager.holds_join hjoin₄ 5 c 2).mp hheld with hold | ⟨-, hid, -, hfree⟩
    · exact hholds₃ c hold
    · rw [hid] at hfree
      exact hfree hkey₃
  obtain ⟨joined, hrun⟩ := exists_tracked_of_run (.cons hstep₁ (.cons hstep₂ (.single hstep₃))) ∅
  have htracked₄ : TrackedStep D (sv₃, joined) _ (_, joined.track _) := ⟨hstep₄, rfl⟩
  have hserved := h db (fun _ => 0) _ _ (hrun.snoc htracked₄)
  obtain ⟨c, hheld, -⟩ := served_iff.mp hserved (2, 5) (Or.inr (by simp))
  exact hholds₄ c hheld

end Server

end AppChat.Connection
