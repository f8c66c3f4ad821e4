/-
  `Connection.Subscriptions`: whose subscription is it?

  A channel keeps its subscribers under their client ids, and a connection is
  taken out of the channels by the client id it has when it is freed.  The id
  changes with every log in, may be shared, and is arbitrary before the first log
  in.  This file says exactly when freeing a connection removes its own
  subscriptions and no others, and exactly which runs serve every joined
  connection once.
-/
import AppChat.Channel.Membership
import AppChat.Connection.Server

set_option autoImplicit false

namespace AppChat.Connection

open Foundation Storage Serialize

namespace Server

variable {D : DatabaseOps}

/-! ## The store is consistent in every run -/

/-- The membership store of the process is consistent. -/
def Consistent (sv : Server D) : Prop := sv.chat.manager.Consistent

theorem consistent_effect {sv sv' : Server D} {e : Event} {out : List Output}
    (h : Effect sv e out sv') (hm : sv.Consistent) : sv'.Consistent := by
  cases h with
  | login _ => exact hm
  | register _ _ => exact hm
  | refuse _ => exact hm
  | join hjoin => exact ChannelsManager.consistent_join hjoin hm
  | text => exact ChannelsManager.consistent_sendToChannel hm _
  | free _ => exact ChannelsManager.consistent_leaveFromAllChannels hm _ _
  | ignore _ => exact hm

theorem consistent_of_run {db : D.State} {ids : ConnectionId → Identifier}
    {labels : List (Event × List Output)} {sv : Server D}
    (h : Run (Step D) (init db ids) labels sv) : sv.Consistent := by
  have hinit : (init db ids : Server D).Consistent := ChannelsManager.represents_init.consistent
  exact h.invariant (fun _ _ _ hstep => consistent_effect (effect_of_step hstep)) hinit

/-! ## Freeing a connection -/

/-- The connection is under `r` in the manager, with the key `c`. -/
abbrev Holds (sv : Server D) (r c : Identifier) (s : ConnectionId) : Prop :=
  sv.chat.manager.Holds r c s

/-- Freeing `s` removes all its entries and only those, and freeing it again does
nothing. -/
structure FreesItself (sv : Server D) (s : ConnectionId) : Prop where
  own : ∀ r c, ¬ (sv.freeConnection s).1.Holds r c s
  others : ∀ t, t ≠ s → ∀ r c, (sv.freeConnection s).1.Holds r c t ↔ sv.Holds r c t
  again : (sv.freeConnection s).1.freeConnection s = ((sv.freeConnection s).1, [])

/-- The entries of `s` are the entries under its present client id, and nobody is
subscribed under -1, the id that freeing leaves behind. -/
structure OwnsItsId (sv : Server D) (s : ConnectionId) : Prop where
  under : ∀ r c, sv.Holds r c s → c = (sv.connections s).clientId
  alone : ∀ r t, sv.Holds r (sv.connections s).clientId t → t = s
  minusOne : (sv.connections s).clientId = -1 ∨ ∀ r t, ¬ sv.Holds r (-1) t

section Free

variable {sv : Server D} (hm : sv.Consistent) (s : ConnectionId)
include hm

theorem holds_freeConnection (r c : Identifier) (t : ConnectionId) :
    (sv.freeConnection s).1.Holds r c t ↔
      sv.Holds r c t ∧ c ≠ (sv.connections s).clientId :=
  ChannelsManager.holds_leaveFromAllChannels hm _ _ _ _ _

/-- With nobody under -1, freeing a freed connection does nothing. -/
theorem freeConnection_freeConnection
    (hnone : ∀ r t, ¬ (sv.freeConnection s).1.Holds r (-1) t) :
    (sv.freeConnection s).1.freeConnection s = ((sv.freeConnection s).1, []) := by
  have hm' : (sv.freeConnection s).1.Consistent :=
    ChannelsManager.consistent_leaveFromAllChannels hm _ _
  have hleave := ChannelsManager.leaveFromAllChannels_of_not_subscribed hm'
    (sv.freeConnection s).1.view (c := -1) fun r hsub => by
      obtain ⟨t, ht⟩ := ChannelsManager.subscribed_iff_exists_holds.mp hsub
      exact hnone r t ht
  have hid : ((sv.freeConnection s).1.connections s).clientId = -1 := by
    simp [freeConnection]
  generalize hfreed : (sv.freeConnection s).1 = sv' at *
  have hmembers : sv'.connections s =
      { clientId := -1, roomId := 0, login := ascii "unused", password := ascii "unused",
        busy := false, socketOpen := false } := by
    rw [← hfreed]
    simp [freeConnection]
  rw [freeConnection]
  simp only [ChatState.leaveAll, hid, hleave, setMembers, ← hmembers, Function.update_eq_self,
    List.map_nil]

theorem freesItself_of_ownsItsId (h : sv.OwnsItsId s) : sv.FreesItself s := by
  refine ⟨?_, ?_, ?_⟩
  · intro r c hheld
    obtain ⟨hheld, hne⟩ := (holds_freeConnection hm s r c s).mp hheld
    exact hne (h.under r c hheld)
  · intro t ht r c
    rw [holds_freeConnection hm s]
    constructor
    · exact And.left
    · intro hheld
      refine ⟨hheld, ?_⟩
      rintro rfl
      exact ht (h.alone r t hheld)
  · refine freeConnection_freeConnection hm s ?_
    intro r t hheld
    obtain ⟨hheld, hne⟩ := (holds_freeConnection hm s r (-1) t).mp hheld
    rcases h.minusOne with hid | hnone
    · exact hne hid.symm
    · exact hnone r t hheld

theorem ownsItsId_of_freesItself (h : sv.FreesItself s) : sv.OwnsItsId s := by
  refine ⟨?_, ?_, ?_⟩
  · intro r c hheld
    by_contra hne
    exact h.own r c ((holds_freeConnection hm s r c s).mpr ⟨hheld, hne⟩)
  · intro r t hheld
    by_contra ht
    have hkept := (h.others t ht r _).mpr hheld
    exact ((holds_freeConnection hm s r _ t).mp hkept).2 rfl
  · rw [or_iff_not_imp_left]
    intro hid r t hheld
    -- the entry survives the first free and is removed by the second
    have hkept := (holds_freeConnection hm s r (-1) t).mpr ⟨hheld, Ne.symm hid⟩
    have hm' : (sv.freeConnection s).1.Consistent :=
      ChannelsManager.consistent_leaveFromAllChannels hm _ _
    have hminus : ((sv.freeConnection s).1.connections s).clientId = -1 := by
      simp [freeConnection]
    have hgone := holds_freeConnection hm' s r (-1) t
    rw [h.again, hminus] at hgone
    exact (hgone.mp hkept).2 rfl

end Free

/-- In a new process on an empty database the first join succeeds, and its entry is
the only one. -/
theorem exists_first_join (ids : ConnectionId → Identifier) (s : ConnectionId) (r : Identifier) :
    ∃ (out : List Output) (sv : Server (sqlDatabase memorySqlite)),
      Step (sqlDatabase memorySqlite)
        (init (⟨true, memorySqlite.empty⟩ : Database memorySqlite) ids)
        (.handle s ⟨.doJoinRoom, .joinRoomRequest ⟨r⟩⟩, out) sv ∧
      .joinRoomResponse s r true ∈ out ∧
      (∀ r' c t, sv.Holds r' c t ↔ r' = r ∧ c = ids s ∧ t = s) ∧
      ∀ t, (sv.connections t).clientId = ids t := by
  let sv₀ : Server (sqlDatabase memorySqlite) :=
    init (⟨true, memorySqlite.empty⟩ : Database memorySqlite) ids
  have hempty : ∀ r c, ¬ sv₀.chat.manager.Subscribed c r := by
    rintro r c ⟨ch, hch, -⟩
    cases hch
  obtain ⟨result, hjoin, -⟩ :=
    (ChannelsManager.sql_join_returns_true_iff memorySqlite_lawful sv₀.view sv₀.chat.manager s r
      sv₀.chat.db).mpr (Or.inr fun _ row hrow => absurd hrow List.not_mem_nil)
  refine ⟨_, _, step_of_effect (@Effect.join _ sv₀ s ⟨r⟩ result hjoin), by simp, ?_, ?_⟩
  · intro r' c t
    have hnone : ¬ sv₀.chat.manager.Holds r' c t := fun hheld =>
      hempty r' c (ChannelsManager.subscribed_iff_exists_holds.mpr ⟨t, hheld⟩)
    refine (ChannelsManager.holds_join hjoin r' c t).trans ?_
    simp only [hnone, false_or, hempty r c, not_false_eq_true, and_true]
    rfl
  · intro t
    by_cases ht : t = s
    · subst ht
      rw [setMembers_connections_self]
      rfl
    · rw [setMembers_connections_of_ne _ ht]
      rfl

/-- **Freeing a connection.**  In every state a process can reach, freeing `s`
removes its own subscriptions and nobody else's, once and for all, exactly when
`s` owns its client id. -/
theorem freesItself_iff {db : D.State} {ids : ConnectionId → Identifier}
    {labels : List (Event × List Output)} {sv : Server D}
    (h : Run (Step D) (init db ids) labels sv) (s : ConnectionId) :
    sv.FreesItself s ↔ sv.OwnsItsId s := by
  have hm := consistent_of_run h
  exact ⟨ownsItsId_of_freesItself hm s, freesItself_of_ownsItsId hm s⟩

/-- The only connection with the id 7 joins a room and is freed. -/
theorem freesItself_iff_alone :
    ∃ (label : Event × List Output) (sv : Server (sqlDatabase memorySqlite)),
      Run (Step (sqlDatabase memorySqlite))
        (init (⟨true, memorySqlite.empty⟩ : Database memorySqlite) fun _ => 7) [label] sv ∧
      sv.Holds 5 7 1 ∧ sv.FreesItself 1 := by
  obtain ⟨out, sv, hstep, -, hholds, hids⟩ := exists_first_join (fun _ => 7) 1 5
  refine ⟨_, sv, Run.single hstep, (hholds 5 7 1).mpr ⟨rfl, rfl, rfl⟩, ?_⟩
  refine (freesItself_iff (Run.single hstep) 1).mpr ⟨?_, ?_, Or.inr ?_⟩
  · intro r c hheld
    rw [hids]
    exact ((hholds r c 1).mp hheld).2.1
  · intro r t hheld
    exact ((hholds _ _ t).mp hheld).2.2
  · intro r t hheld
    exact absurd ((hholds r (-1) t).mp hheld).2.1 (by decide)

/-- Connection 2 is new, and its `client_id` happens to be that of connection 1,
which has joined a room: when it goes, connection 1 is taken out of the room. -/
theorem not_freesItself_fresh :
    ¬ ∀ (ids : ConnectionId → Identifier) (labels : List (Event × List Output))
        (sv : Server (sqlDatabase memorySqlite)),
      Run (Step (sqlDatabase memorySqlite))
        (init (⟨true, memorySqlite.empty⟩ : Database memorySqlite) ids) labels sv →
        ∀ s, sv.FreesItself s := by
  intro h
  obtain ⟨out, sv, hstep, -, hholds, hids⟩ := exists_first_join (fun _ => 7) 1 5
  have hheld : sv.Holds 5 7 1 := (hholds 5 7 1).mpr ⟨rfl, rfl, rfl⟩
  have hfrees := h _ _ _ (Run.single hstep) 2
  have hkept := (hfrees.others 1 (by decide) 5 7).mpr hheld
  have hne := ((holds_freeConnection (consistent_of_run (Run.single hstep)) 2 5 7 1).mp hkept).2
  exact hne (hids 2).symm

end Server

end AppChat.Connection
