/-
  `Connection.Sessions`: who acts, and under which name.

  No handler asks whether its connection is logged in.  A connection enters a room
  under the id it was last answered, whatever that is, and a text carries the login
  its sender has put into it.
-/
import AppChat.Connection.Subscriptions

set_option autoImplicit false

namespace AppChat.Connection

open Foundation Storage Serialize

/-! ## The last answers -/

/-- The login and the id of the last answer of a connection. -/
structure Session where
  login : Bytes
  clientId : Identifier
  deriving DecidableEq, Repr

/-- The session of each connection; none before the first answer. -/
abbrev Sessions := ConnectionId → Option Session

/-- The session an output leaves its connection with. -/
def Output.session (login : Bytes) : Output → Option Session
  | .autoResponse _ clientId => some ⟨login, clientId⟩
  | .regResponse _ clientId => some ⟨login, clientId⟩
  | _ => none

/-- A log in and a registration, answered OK or FAIL, begin a session with the id of
the answer; freeing a connection leaves it the id -1. -/
def Sessions.track (sessions : Sessions) (label : Event × List Output) : Sessions :=
  match label.1 with
  | .handle s ⟨.doAutorisation, .inputRequest m⟩ =>
      Function.update sessions s (label.2.findSome? (Output.session m.login))
  | .handle s ⟨.doRegistration, .registerRequest m⟩ =>
      Function.update sessions s (label.2.findSome? (Output.session m.login))
  | e =>
      match e.frees with
      | some s => Function.update sessions s (some ⟨ascii "unused", -1⟩)
      | none => sessions

/-- The sessions after a run. -/
def Sessions.after (labels : List (Event × List Output)) : Sessions :=
  labels.foldl Sessions.track fun _ => none

/-- The connection is logged in as `login` with the id `clientId`. -/
def Sessions.Authorised (sessions : Sessions) (s : ConnectionId) (login : Bytes)
    (clientId : Identifier) : Prop :=
  sessions s = some ⟨login, clientId⟩ ∧ clientId ≠ -1

theorem Sessions.track_of_frees {sessions : Sessions} {e : Event} {out : List Output}
    {s : ConnectionId} (h : e.frees = some s) :
    sessions.track (e, out) = Function.update sessions s (some ⟨ascii "unused", -1⟩) := by
  cases e with
  | handle t task =>
      obtain ⟨handler, r⟩ := task
      cases handler <;> cases r <;> cases h <;> rfl
  | free t =>
      cases h
      rfl

theorem Sessions.track_of_ignored {sessions : Sessions} {e : Event} {out : List Output}
    (h : e.ignored = true) : sessions.track (e, out) = sessions := by
  cases e with
  | handle t task =>
      obtain ⟨handler, r⟩ := task
      cases handler <;> cases r <;> first | rfl | cases h
  | free t => cases h

namespace Server

variable {D : DatabaseOps}

/-! ## The sessions follow the members -/

/-- Every connection has the login and the id of its session. -/
def Tracks (ids : ConnectionId → Identifier) (sv : Server D) (sessions : Sessions) : Prop :=
  ∀ s, match sessions s with
    | some session =>
        (sv.connections s).clientId = session.clientId ∧ (sv.connections s).login = session.login
    | none => (sv.connections s).clientId = ids s

section Step

variable {ids : ConnectionId → Identifier} {sv sv' : Server D} {sessions : Sessions}

/-- A step that changes only the members of `s`. -/
theorem Tracks.update (h : Tracks ids sv sessions) {s : ConnectionId} {c : Members}
    {session : Session} (hsv : sv'.connections = Function.update sv.connections s c)
    (hid : c.clientId = session.clientId) (hlogin : c.login = session.login) :
    Tracks ids sv' (Function.update sessions s (some session)) := by
  intro t
  by_cases ht : t = s
  · subst ht
    rw [Function.update_self, hsv, Function.update_self]
    exact ⟨hid, hlogin⟩
  · rw [Function.update_of_ne ht, hsv, Function.update_of_ne ht]
    exact h t

/-- A step that changes neither id nor login of any connection. -/
theorem Tracks.congr (h : Tracks ids sv sessions)
    (hid : ∀ s, (sv'.connections s).clientId = (sv.connections s).clientId)
    (hlogin : ∀ s, (sv'.connections s).login = (sv.connections s).login) :
    Tracks ids sv' sessions := by
  intro s
  rw [hid, hlogin]
  exact h s

theorem tracks_effect {e : Event} {out : List Output} (heffect : Effect sv e out sv')
    (h : Tracks ids sv sessions) : Tracks ids sv' (sessions.track (e, out)) := by
  cases heffect with
  | login _ => exact h.update rfl rfl rfl
  | register _ _ => exact h.update rfl rfl rfl
  | refuse _ => exact h.update rfl rfl rfl
  | @join s m result _ =>
      refine h.congr ?_ ?_
      all_goals
        intro t
        by_cases ht : t = s
        · subst ht
          rw [setMembers_connections_self]
        · rw [setMembers_connections_of_ne _ ht]
  | text => exact h
  | @free s e hfrees =>
      have htrack : sessions.track (e, (sv.freeConnection s).2) =
          Function.update sessions s (some ⟨ascii "unused", -1⟩) :=
        Sessions.track_of_frees hfrees
      rw [htrack]
      exact h.update rfl rfl rfl
  | ignore hignored =>
      rw [Sessions.track_of_ignored hignored]
      exact h

end Step

/-- The sessions of a run follow the members in every state of it. -/
theorem tracks_foldl {ids : ConnectionId → Identifier} {sv sv' : Server D} {sessions : Sessions}
    {labels : List (Event × List Output)} (h : Run (Step D) sv labels sv')
    (htracks : Tracks ids sv sessions) : Tracks ids sv' (labels.foldl Sessions.track sessions) := by
  induction h generalizing sessions with
  | nil sv => exact htracks
  | cons hstep _ ih => exact ih (tracks_effect (effect_of_step hstep) htracks)

theorem tracks_after {db : D.State} {ids : ConnectionId → Identifier} {sv : Server D}
    {labels : List (Event × List Output)} (h : Run (Step D) (init db ids) labels sv) :
    Tracks ids sv (Sessions.after labels) :=
  tracks_foldl h fun _ => rfl

/-- The id a connection has: that of its last answer, or what its member held when
the object was made. -/
theorem Tracks.clientId {ids : ConnectionId → Identifier} {sv : Server D} {sessions : Sessions}
    (h : Tracks ids sv sessions) (s : ConnectionId) :
    (sv.connections s).clientId = ((sessions s).map (·.clientId)).getD (ids s) := by
  have hs := h s
  cases hsession : sessions s with
  | none =>
      rw [hsession] at hs
      exact hs
  | some session =>
      rw [hsession] at hs
      exact hs.1

/-! ## Who enters a room -/

/-- Every connection that enters a room is logged in, under the id it enters with. -/
def EntersLoggedIn (sessions : Sessions) (sv sv' : Server D) : Prop :=
  ∀ r c s, sv'.Holds r c s → ¬ sv.Holds r c s → ∃ login, sessions.Authorised s login c

/-- Every text carries the login its sender is logged in with. -/
def WritesAsItself (sessions : Sessions) (e : Event) : Prop :=
  ∀ s m, e = .handle s ⟨.doTextMsg, .textRequest m⟩ →
    ∃ clientId, sessions.Authorised s m.login clientId

/-- Only a join makes a new entry, and it is that of the joiner under its present
id. -/
theorem entry_of_effect {sv sv' : Server D} {e : Event} {out : List Output}
    (heffect : Effect sv e out sv') (hm : sv.Consistent) {r c : Identifier} {s : ConnectionId}
    (hheld : sv'.Holds r c s) (hnew : ¬ sv.Holds r c s) :
    e = .handle s ⟨.doJoinRoom, .joinRoomRequest ⟨r⟩⟩ ∧ c = (sv.connections s).clientId := by
  cases heffect with
  | login _ => exact absurd hheld hnew
  | register _ _ => exact absurd hheld hnew
  | refuse _ => exact absurd hheld hnew
  | join hjoin =>
      rcases (ChannelsManager.holds_join hjoin r c s).mp hheld with hold | ⟨hr, hc, hs, -⟩
      · exact absurd hold hnew
      · subst hr hs
        exact ⟨rfl, hc⟩
  | text => exact absurd ((ChannelsManager.holds_sendToChannel _ _ r c s).mp hheld) hnew
  | free _ => exact absurd ((holds_freeConnection hm _ r c s).mp hheld).1 hnew
  | ignore _ => exact absurd hheld hnew

/-- **Who acts, and under which name.**  In every run, whoever enters a room has
asked to join it and enters under the id of its last answer, -1 after a refusal and
arbitrary before the first answer.  What `do_text_msg` delivers and stores carries
the login in the request. -/
theorem enters_as_lastAnswer {db : D.State} {ids : ConnectionId → Identifier}
    {labels : List (Event × List Output)} {sv sv' : Server D} {e : Event} {out : List Output}
    (h : Run (Step D) (init db ids) labels sv) (hstep : Step D sv (e, out) sv') :
    (∀ r c s, sv'.Holds r c s → ¬ sv.Holds r c s →
      e = .handle s ⟨.doJoinRoom, .joinRoomRequest ⟨r⟩⟩ ∧
        c = ((Sessions.after labels s).map (·.clientId)).getD (ids s)) ∧
    (∀ s m, e = .handle s ⟨.doTextMsg, .textRequest m⟩ →
      sv'.chat.db = D.saveTextMsg sv.chat.db ⟨m.roomId, m.login, m.text⟩ ∧
      sv'.chat.manager = (sv.chat.manager.sendToChannel ⟨m.roomId, m.login, m.text⟩).1 ∧
      ∀ o ∈ out, ∃ recipient, o = .message ⟨recipient, m.roomId, m.login, m.text⟩) := by
  constructor
  · intro r c s hheld hnew
    obtain ⟨he, hc⟩ := entry_of_effect (effect_of_step hstep) (consistent_of_run h) hheld hnew
    exact ⟨he, hc.trans ((tracks_after h).clientId s)⟩
  · rintro s m rfl
    cases hstep
    refine ⟨rfl, rfl, ?_⟩
    intro o ho
    obtain ⟨d, hd, rfl⟩ := List.mem_map.mp ho
    have hdata : d.data = ⟨m.roomId, m.login, m.text⟩ :=
      ChannelsManager.data_of_mem_sendToChannel hd
    refine ⟨d.recipient, ?_⟩
    rw [← hdata]

/-- Connection 1 logs in and connection 2 is refused.  Both join a room, the one under the
id 7 and the other under -1, and connection 2 writes as somebody else. -/
theorem enters_as_lastAnswer_refused :
    let D := sqlDatabase memorySqlite
    let db : Database memorySqlite := ⟨true, ⟨[⟨ascii "u", 7, ascii "pw"⟩], []⟩⟩
    let logIn : Event := .handle 1 ⟨.doAutorisation, .inputRequest ⟨ascii "u", ascii "pw"⟩⟩
    let refused : Event := .handle 2 ⟨.doAutorisation, .inputRequest ⟨ascii "u", ascii "no"⟩⟩
    let join (s : ConnectionId) : Event := .handle s ⟨.doJoinRoom, .joinRoomRequest ⟨5⟩⟩
    let text : Event := .handle 2 ⟨.doTextMsg, .textRequest ⟨ascii "ann", 5, ascii "hi"⟩⟩
    ∃ (sv sv₁ sv₂ sv₃ : Server D) (out₁ out₂ out₃ : List Output),
      Run (Step D) (init db fun _ => 0)
        [(logIn, [.autoResponse 1 7]), (refused, [.autoResponse 2 (-1)])] sv ∧
      Step D sv (join 1, out₁) sv₁ ∧
      (∀ r c s, sv₁.Holds r c s → ¬ sv.Holds r c s → c = 7) ∧
      Step D sv₁ (join 2, out₂) sv₂ ∧
      (∀ r c s, sv₂.Holds r c s → ¬ sv₁.Holds r c s → c = -1) ∧
      Step D sv₂ (text, out₃) sv₃ ∧
      sv₃.chat.db = D.saveTextMsg sv₂.chat.db ⟨5, ascii "ann", ascii "hi"⟩ ∧
      ∀ o ∈ out₃, ∃ recipient, o = .message ⟨recipient, 5, ascii "ann", ascii "hi"⟩ := by
  intro D db logIn refused join text
  have hcheck : D.checkClient db (ascii "u") (ascii "pw") = some 7 := by decide
  have hrefused : D.checkClient db (ascii "u") (ascii "no") = some (-1) := by decide
  let sv₀ : Server D := init db fun _ => 0
  have hlogIn := step_of_effect (@Effect.login D sv₀ 1 ⟨ascii "u", ascii "pw"⟩ 7 hcheck)
  let svIn := sv₀.setMembers 1
    { sv₀.connections 1 with login := ascii "u", password := ascii "pw", clientId := 7 }
  have hrefuse := step_of_effect (@Effect.login D svIn 2 ⟨ascii "u", ascii "no"⟩ (-1) hrefused)
  let sv := svIn.setMembers 2
    { svIn.connections 2 with login := ascii "u", password := ascii "no", clientId := -1 }
  have hrun : Run (Step D) sv₀ [(logIn, [.autoResponse 1 7]), (refused, [.autoResponse 2 (-1)])] sv :=
    .cons hlogIn (.single hrefuse)
  -- the first join makes the room, which the second one finds
  obtain ⟨result₁, hjoin₁, -⟩ :=
    (ChannelsManager.sql_join_returns_true_iff memorySqlite_lawful sv.view sv.chat.manager 1 5
      sv.chat.db).mpr (Or.inr fun _ row hrow => absurd hrow List.not_mem_nil)
  have hstep₁ := step_of_effect (@Effect.join D sv 1 ⟨5⟩ result₁ hjoin₁)
  let sv₁ : Server D := ({ sv with chat := ⟨result₁.manager, result₁.db⟩ }).setMembers 1
    { sv.connections 1 with busy := true, roomId := 5 }
  have hfound : (5 : Identifier) ∈ sv₁.chat.manager.channels := by
    obtain ⟨ch, hch, -⟩ := (ChannelsManager.subscribed_join hjoin₁ 7 5).mpr (Or.inr ⟨rfl, rfl⟩)
    exact AList.lookup_isSome.mp (Option.isSome_iff_exists.mpr ⟨ch, hch⟩)
  obtain ⟨result₂, hjoin₂, -⟩ :=
    (ChannelsManager.sql_join_returns_true_iff memorySqlite_lawful sv₁.view sv₁.chat.manager 2 5
      sv₁.chat.db).mpr (Or.inl hfound)
  have hstep₂ := step_of_effect (@Effect.join D sv₁ 2 ⟨5⟩ result₂ hjoin₂)
  let sv₂ : Server D := ({ sv₁ with chat := ⟨result₂.manager, result₂.db⟩ }).setMembers 2
    { sv₁.connections 2 with busy := true, roomId := 5 }
  have hstep₃ := step_of_effect (@Effect.text D sv₂ 2 ⟨ascii "ann", 5, ascii "hi"⟩)
  obtain ⟨hdb, -, hout⟩ :=
    (enters_as_lastAnswer ((hrun.snoc hstep₁).snoc hstep₂) hstep₃).2 2 _ rfl
  refine ⟨sv, sv₁, sv₂, _, _, _, _, hrun, hstep₁, ?_, hstep₂, ?_, hstep₃, hdb, hout⟩
  · intro r c s hheld hnew
    obtain ⟨hevent, hc⟩ := (enters_as_lastAnswer hrun hstep₁).1 r c s hheld hnew
    cases hevent
    exact hc
  · intro r c s hheld hnew
    obtain ⟨hevent, hc⟩ := (enters_as_lastAnswer (hrun.snoc hstep₁) hstep₂).1 r c s hheld hnew
    cases hevent
    exact hc

/-- A connection that never logged in joins a room, and one that never logged in
writes as somebody. -/
theorem not_entersLoggedIn_fresh :
    (¬ ∀ (ids : ConnectionId → Identifier) (labels : List (Event × List Output))
        (sv sv' : Server (sqlDatabase memorySqlite)) (label : Event × List Output),
      Run (Step (sqlDatabase memorySqlite))
        (init (⟨true, memorySqlite.empty⟩ : Database memorySqlite) ids) labels sv →
      Step (sqlDatabase memorySqlite) sv label sv' →
        EntersLoggedIn (Sessions.after labels) sv sv') ∧
    (¬ ∀ (ids : ConnectionId → Identifier) (labels : List (Event × List Output))
        (sv sv' : Server (sqlDatabase memorySqlite)) (label : Event × List Output),
      Run (Step (sqlDatabase memorySqlite))
        (init (⟨true, memorySqlite.empty⟩ : Database memorySqlite) ids) labels sv →
      Step (sqlDatabase memorySqlite) sv label sv' →
        WritesAsItself (Sessions.after labels) label.1) := by
  constructor
  · intro h
    obtain ⟨out, sv, hstep, -, hholds, -⟩ := exists_first_join (fun _ => 7) 1 5
    have hheld : sv.Holds 5 7 1 := (hholds 5 7 1).mpr ⟨rfl, rfl, rfl⟩
    have hnew : ¬ (init (⟨true, memorySqlite.empty⟩ : Database memorySqlite) fun _ => 7 :
        Server (sqlDatabase memorySqlite)).Holds 5 7 1 := by
      rintro ⟨ch, hch, -⟩
      cases hch
    obtain ⟨login, hsession, -⟩ := h _ [] _ sv _ (.nil _) hstep 5 7 1 hheld hnew
    cases hsession
  · intro h
    obtain ⟨clientId, hsession, -⟩ :=
      h (fun _ => 7) [] _ _ (.handle 1 ⟨.doTextMsg, .textRequest ⟨ascii "ann", 5, ascii "hi"⟩⟩, _)
        (.nil _) rfl 1 _ rfl
    cases hsession

end Server

end AppChat.Connection
