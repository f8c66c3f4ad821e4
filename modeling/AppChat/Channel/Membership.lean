/-
  `Channel.Membership`: the two sides of the membership store agree.

  Who is in which room is stored twice: each channel has its subscribers, and
  `client_in_rooms` lists the rooms of each client.  Abstractly there is one
  relation.  Every call of the manager is an event of that relation, and both
  sides represent it.
-/
import AppChat.Channel.ChannelsManager
import AppChat.Foundation.Transition
import AppChat.Storage.MemorySqlite

set_option autoImplicit false

namespace AppChat

open Foundation Storage

/-! ## The abstract membership -/

/-- Which client is in which room. -/
abbrev Membership := Set (Identifier × Identifier)

namespace Membership

/-- What can happen to a membership. -/
inductive Event where
  | enter (clientId roomId : Identifier)
  | leaveAll (clientId : Identifier)
  | skip

/-- The effect of an event. -/
def apply (M : Membership) : Event → Membership
  | .enter c r => insert (c, r) M
  | .leaveAll c => {p ∈ M | p.1 ≠ c}
  | .skip => M

/-- The transition system of memberships. -/
def Step (M : Membership) (e : Event) (M' : Membership) : Prop := M' = M.apply e

end Membership

/-! ## Calls of the manager -/

/-- A call of one of the three functions the connections use, with the state of
the subscribers and of the database at that moment. -/
inductive ManagerCall (D : DatabaseOps) where
  | join (view : View) (newSub : ConnectionId) (newRoomId : Identifier) (db : D.State)
  | sendToChannel (data : TextSendData)
  | leaveFromAllChannels (view : View) (clientId : Identifier)

/-- The event of a call. -/
def ManagerCall.event {D : DatabaseOps} : ManagerCall D → Membership.Event
  | .join view newSub newRoomId _ => .enter (view newSub).clientId newRoomId
  | .sendToChannel _ => .skip
  | .leaveFromAllChannels _ clientId => .leaveAll clientId

/-- The manager after a call; `none` when the call throws. -/
def ManagerCall.apply {D : DatabaseOps} (m : ChannelsManager) :
    ManagerCall D → Option ChannelsManager
  | .join view newSub newRoomId db => (m.join view newSub newRoomId db).map (·.manager)
  | .sendToChannel data => some (m.sendToChannel data).1
  | .leaveFromAllChannels view clientId => some (m.leaveFromAllChannels view clientId).1

/-- A call that returns. -/
def ManagerStep (D : DatabaseOps) (m : ChannelsManager) (call : ManagerCall D)
    (m' : ChannelsManager) : Prop :=
  call.apply m = some m'

namespace ChannelsManager

variable {D : DatabaseOps}

/-- `c` is a key of the subscribers of `channels[r]`. -/
def Subscribed (m : ChannelsManager) (c r : Identifier) : Prop :=
  ∃ ch, m.channels.lookup r = some ch ∧ c ∈ ch.subscribers

/-- `channels[r]` holds the subscriber `s` under the key `c`. -/
def Holds (m : ChannelsManager) (r c : Identifier) (s : ConnectionId) : Prop :=
  ∃ ch, m.channels.lookup r = some ch ∧ ch.subscribers.lookup c = some s

/-- `r` occurs in `client_in_rooms[c]`. -/
def Indexed (m : ChannelsManager) (c r : Identifier) : Prop :=
  ∃ rooms, m.clientInRooms.lookup c = some rooms ∧ r ∈ rooms

theorem subscribed_iff_exists_holds {m : ChannelsManager} {c r : Identifier} :
    m.Subscribed c r ↔ ∃ s, m.Holds r c s := by
  constructor
  · rintro ⟨ch, hch, hmem⟩
    obtain ⟨s, hs⟩ := UnorderedMap.mem_iff_lookup.mp hmem
    exact ⟨s, ch, hch, hs⟩
  · rintro ⟨s, ch, hch, hs⟩
    exact ⟨ch, hch, UnorderedMap.mem_iff_lookup.mpr ⟨s, hs⟩⟩

/-- A key holds one subscriber. -/
theorem Holds.unique {m : ChannelsManager} {r c : Identifier} {s t : ConnectionId}
    (hs : m.Holds r c s) (ht : m.Holds r c t) : s = t := by
  obtain ⟨ch, hch, hs⟩ := hs
  obtain ⟨ch', hch', ht⟩ := ht
  rw [hch, Option.some.injEq] at hch'
  subst hch'
  exact Option.some.inj (hs.symm.trans ht)

/-- The two sides agree. -/
structure Consistent (m : ChannelsManager) : Prop where
  subscribed_iff : ∀ c r, m.Subscribed c r ↔ m.Indexed c r
  mem_iff : ∀ c, c ∈ m.clientInRooms ↔ c ∈ m.clientidToLogin
  rooms_ne_nil : ∀ c rooms, m.clientInRooms.lookup c = some rooms → rooms ≠ []
  channelId_eq : ∀ r ch, m.channels.lookup r = some ch → ch.channelId = r

/-- The manager is consistent, and its channels represent `M`. -/
structure Represents (m : ChannelsManager) (M : Membership) : Prop where
  consistent : m.Consistent
  mem_iff : ∀ c r, (c, r) ∈ M ↔ m.Subscribed c r

theorem represents_init : init.Represents ∅ where
  consistent :=
    { subscribed_iff := fun c r => by simp [Subscribed, Indexed, init]
      mem_iff := fun c => by simp [init]
      rooms_ne_nil := fun c rooms h => by simp [init] at h
      channelId_eq := fun r ch h => by simp [init] at h }
  mem_iff := fun c r => by simp [Subscribed, init]

/-! ## A join -/

section Join

variable {view : View} {m : ChannelsManager} {s : ConnectionId} {r : Identifier}
  {db : D.State} {result : JoinResult D}

/-- A join adds an entry for the subscriber unless its client id is a key already;
it changes no entry that is there. -/
theorem holds_join (h : join view m s r db = some result) (r' c : Identifier) (t : ConnectionId) :
    result.manager.Holds r' c t ↔
      m.Holds r' c t ∨
        (r' = r ∧ c = (view s).clientId ∧ t = s ∧ ¬ m.Subscribed c r) := by
  obtain ⟨ch, hch, hlookup, -⟩ := join_cases h
  have hold : ∀ c t, m.Holds r c t ↔ ch.subscribers.lookup c = some t := by
    intro c t
    rcases hch with ⟨hsome, -⟩ | ⟨hnone, history, -, rfl⟩
    · simp [Holds, hsome]
    · simp [Holds, hnone]
  have hkey : m.Subscribed (view s).clientId r ↔ (view s).clientId ∈ ch.subscribers := by
    rw [subscribed_iff_exists_holds, UnorderedMap.mem_iff_lookup]
    exact exists_congr fun t => hold _ t
  by_cases hr : r' = r
  · subst hr
    rw [hold]
    have hnew : result.manager.Holds r' c t ↔
        (ch.subscribers.tryEmplace (view s).clientId s).lookup c = some t := by
      simp [Holds, hlookup]
    rw [hnew, UnorderedMap.lookup_tryEmplace]
    by_cases hc : c = (view s).clientId
    · subst hc
      rw [hkey, ← AList.lookup_isSome]
      cases ch.subscribers.lookup (view s).clientId <;> simp [eq_comm]
    · simp [hc]
  · unfold Holds
    rw [hlookup, if_neg hr]
    simp [hr]

theorem subscribed_join (h : join view m s r db = some result) (c r' : Identifier) :
    result.manager.Subscribed c r' ↔
      m.Subscribed c r' ∨ (c = (view s).clientId ∧ r' = r) := by
  rw [subscribed_iff_exists_holds]
  simp only [holds_join h]
  constructor
  · rintro ⟨t, hold | ⟨hr, hc, -, -⟩⟩
    · exact Or.inl (subscribed_iff_exists_holds.mpr ⟨t, hold⟩)
    · exact Or.inr ⟨hc, hr⟩
  · rintro (hold | ⟨hc, hr⟩)
    · obtain ⟨t, ht⟩ := subscribed_iff_exists_holds.mp hold
      exact ⟨t, Or.inl ht⟩
    · by_cases hkey : m.Subscribed c r
      · obtain ⟨t, ht⟩ := subscribed_iff_exists_holds.mp hkey
        exact ⟨t, Or.inl (hr ▸ ht)⟩
      · exact ⟨s, Or.inr ⟨hr, hc, rfl, hkey⟩⟩

theorem indexed_join (h : join view m s r db = some result) (c r' : Identifier) :
    result.manager.Indexed c r' ↔
      m.Indexed c r' ∨ (c = (view s).clientId ∧ r' = r) := by
  obtain ⟨-, -, -, hrooms, -⟩ := join_cases h
  unfold Indexed
  rw [hrooms, lookup_addRoom]
  by_cases hc : c = (view s).clientId
  · subst hc
    cases hold : m.clientInRooms.lookup (view s).clientId <;> simp
  · simp [hc]

/-- A join that returns keeps the two sides in agreement. -/
theorem consistent_join (h : join view m s r db = some result) (hm : m.Consistent) :
    result.manager.Consistent := by
  obtain ⟨ch, hch, hlookup, hrooms, hlogins, -⟩ := join_cases h
  refine ⟨?_, ?_, ?_, ?_⟩
  · intro c r'
    rw [subscribed_join h, indexed_join h, hm.subscribed_iff]
  · intro c
    rw [hrooms, hlogins, UnorderedMap.mem_tryEmplace, ← hm.mem_iff,
      ← AList.lookup_isSome, lookup_addRoom]
    by_cases hc : c = (view s).clientId
    · simp [hc]
    · simp [hc, AList.lookup_isSome]
  · intro c rooms hc
    rw [hrooms, lookup_addRoom] at hc
    split at hc
    · cases hc
      simp
    · exact hm.rooms_ne_nil c rooms hc
  · intro r' ch' hr'
    rw [hlookup] at hr'
    split at hr'
    · rename_i heq
      cases hr'
      rw [Channel.join_channelId, heq]
      rcases hch with ⟨hsome, -⟩ | ⟨-, history, -, rfl⟩
      · exact hm.channelId_eq r ch hsome
      · rfl
    · exact hm.channelId_eq r' ch' hr'

end Join

/-! ## A text -/

@[simp] theorem holds_sendToChannel (m : ChannelsManager) (data : TextSendData)
    (r c : Identifier) (s : ConnectionId) :
    (m.sendToChannel data).1.Holds r c s ↔ m.Holds r c s := by
  unfold Holds
  rw [lookup_sendToChannel]
  split
  · cases m.channels.lookup r <;> simp
  · rfl

@[simp] theorem subscribed_sendToChannel (m : ChannelsManager) (data : TextSendData)
    (c r : Identifier) : (m.sendToChannel data).1.Subscribed c r ↔ m.Subscribed c r := by
  simp [subscribed_iff_exists_holds]

theorem consistent_sendToChannel {m : ChannelsManager} (hm : m.Consistent)
    (data : TextSendData) : (m.sendToChannel data).1.Consistent := by
  refine ⟨?_, ?_, ?_, ?_⟩
  · intro c r
    rw [subscribed_sendToChannel, hm.subscribed_iff, Indexed, Indexed,
      sendToChannel_clientInRooms]
  · intro c
    rw [sendToChannel_clientInRooms, sendToChannel_clientidToLogin]
    exact hm.mem_iff c
  · rw [sendToChannel_clientInRooms]
    exact hm.rooms_ne_nil
  · intro r ch hr
    rw [lookup_sendToChannel] at hr
    split at hr
    · obtain ⟨old, hold, rfl⟩ := Option.map_eq_some_iff.mp hr
      exact hm.channelId_eq r old hold
    · exact hm.channelId_eq r ch hr

/-! ## A client that leaves -/

/-- Where the index is right, `leave_from_all_channels` removes the entries under
the client id from every channel, and no other entry. -/
theorem holds_leaveFromAllChannels {m : ChannelsManager} (hm : m.Consistent) (view : View)
    (c r c' : Identifier) (s : ConnectionId) :
    (m.leaveFromAllChannels view c).1.Holds r c' s ↔ m.Holds r c' s ∧ c' ≠ c := by
  by_cases hr : r ∈ (m.clientInRooms.lookup c).getD []
  · unfold Holds
    rw [lookup_leaveFromAllChannels, if_pos hr]
    cases m.channels.lookup r with
    | none => simp
    | some ch =>
        have herase := UnorderedMap.lookup_erase_eq ch.subscribers c c'
        by_cases hc : c' = c
        · simp [herase, hc]
        · simp [herase, hc]
  · -- the client is in no channel that its index does not list
    have hnot : ¬ m.Holds r c s := by
      intro hheld
      obtain ⟨rooms, hrooms, hmem⟩ :=
        (hm.subscribed_iff c r).mp (subscribed_iff_exists_holds.mpr ⟨s, hheld⟩)
      rw [hrooms] at hr
      exact hr hmem
    have hsame : (m.leaveFromAllChannels view c).1.Holds r c' s ↔ m.Holds r c' s := by
      unfold Holds
      rw [lookup_leaveFromAllChannels, if_neg hr]
    rw [hsame]
    constructor
    · intro h
      refine ⟨h, ?_⟩
      rintro rfl
      exact hnot h
    · exact And.left

theorem subscribed_leaveFromAllChannels {m : ChannelsManager} (hm : m.Consistent)
    (view : View) (c c' r : Identifier) :
    (m.leaveFromAllChannels view c).1.Subscribed c' r ↔ m.Subscribed c' r ∧ c' ≠ c := by
  simp only [subscribed_iff_exists_holds, holds_leaveFromAllChannels hm, exists_and_right]

theorem indexed_leaveFromAllChannels (m : ChannelsManager) (view : View)
    (c c' r : Identifier) :
    (m.leaveFromAllChannels view c).1.Indexed c' r ↔ m.Indexed c' r ∧ c' ≠ c := by
  unfold Indexed
  rw [leaveFromAllChannels_clientInRooms, UnorderedMap.lookup_erase_eq]
  by_cases hc : c' = c
  · simp [hc]
  · simp [hc]

theorem consistent_leaveFromAllChannels {m : ChannelsManager} (hm : m.Consistent)
    (view : View) (c : Identifier) : (m.leaveFromAllChannels view c).1.Consistent := by
  refine ⟨?_, ?_, ?_, ?_⟩
  · intro c' r
    rw [subscribed_leaveFromAllChannels hm, indexed_leaveFromAllChannels, hm.subscribed_iff]
  · intro c'
    rw [leaveFromAllChannels_clientInRooms, leaveFromAllChannels_clientidToLogin,
      AList.mem_erase, AList.mem_erase, hm.mem_iff]
  · intro c' rooms hc'
    rw [leaveFromAllChannels_clientInRooms, UnorderedMap.lookup_erase_eq] at hc'
    split at hc'
    · cases hc'
    · exact hm.rooms_ne_nil c' rooms hc'
  · intro r ch hr
    rw [lookup_leaveFromAllChannels] at hr
    split at hr
    · obtain ⟨old, hold, rfl⟩ := Option.map_eq_some_iff.mp hr
      rw [Channel.leave_channelId]
      exact hm.channelId_eq r old hold
    · exact hm.channelId_eq r ch hr

/-- A client that is in no room leaves nothing. -/
theorem leaveFromAllChannels_of_not_subscribed {m : ChannelsManager} (hm : m.Consistent)
    (view : View) {c : Identifier} (h : ∀ r, ¬ m.Subscribed c r) :
    m.leaveFromAllChannels view c = (m, []) := by
  have hrooms : m.clientInRooms.lookup c = none := by
    by_contra hsome
    obtain ⟨rooms, hrooms⟩ := Option.ne_none_iff_exists'.mp hsome
    obtain ⟨r, hr⟩ := List.exists_mem_of_ne_nil rooms (hm.rooms_ne_nil c rooms hrooms)
    exact h r ((hm.subscribed_iff c r).mpr ⟨rooms, hrooms, hr⟩)
  have hlogin : c ∉ m.clientidToLogin := by
    rw [← hm.mem_iff]
    exact AList.lookup_eq_none.mp hrooms
  rw [leaveFromAllChannels, hrooms, UnorderedMap.erase_of_notMem hlogin]

/-! ## Every run -/

/-- One call of the manager is one event of the membership. -/
theorem represents_step {m m' : ChannelsManager} {call : ManagerCall D} {M : Membership}
    (h : ManagerStep D m call m') (hm : m.Represents M) :
    m'.Represents (M.apply call.event) := by
  cases call with
  | join view s r db =>
      obtain ⟨result, hjoin, rfl⟩ := Option.map_eq_some_iff.mp h
      refine ⟨consistent_join hjoin hm.consistent, ?_⟩
      intro c r'
      rw [subscribed_join hjoin, ← hm.mem_iff]
      simp [ManagerCall.event, Membership.apply, or_comm]
  | sendToChannel data =>
      cases h
      refine ⟨consistent_sendToChannel hm.consistent _, ?_⟩
      intro c r
      rw [subscribed_sendToChannel]
      exact hm.mem_iff c r
  | leaveFromAllChannels view c =>
      cases h
      refine ⟨consistent_leaveFromAllChannels hm.consistent _ _, ?_⟩
      intro c r
      rw [subscribed_leaveFromAllChannels hm.consistent, ← hm.mem_iff]
      rfl

/-- The manager refines the membership: every run of calls is a run of events,
and in the end both sides of the store represent the same relation. -/
theorem run_refines {m : ChannelsManager} {calls : List (ManagerCall D)}
    (h : Run (ManagerStep D) init calls m) :
    ∃ M, Run Membership.Step ∅ (calls.map ManagerCall.event) M ∧ m.Represents M := by
  refine Run.simulate ?_ h represents_init
  intro m call m' M hstep hm
  exact ⟨M.apply call.event, rfl, represents_step hstep hm⟩

theorem consistent_of_run {m : ChannelsManager} {calls : List (ManagerCall D)}
    (h : Run (ManagerStep D) init calls m) : m.Consistent := by
  obtain ⟨M, -, hM⟩ := run_refines h
  exact hM.consistent

/-- A join returns `true` unless loading the history throws. -/
theorem join_returns_true_iff {view : View} {m : ChannelsManager} {s : ConnectionId}
    {r : Identifier} {db : D.State} :
    (∃ result, join view m s r db = some result ∧ result.flag = true) ↔
      (m.channels.lookup r).isSome ∨ (D.getHistory db r).2 ≠ none := by
  have hnone : join view m s r db = none ↔ _ := join_eq_none_iff
  cases hjoin : join view m s r db with
  | none =>
      obtain ⟨hroom, hload⟩ := hnone.mp hjoin
      simp [hroom, hload]
  | some result =>
      obtain ⟨ch, -, -, -, -, hflag, -⟩ := join_cases hjoin
      have hthrow : ¬ (m.channels.lookup r = none ∧ (D.getHistory db r).2 = none) := by
        rw [← hnone, hjoin]
        simp
      constructor
      · intro _
        by_contra hcon
        simp only [not_or, Option.not_isSome_iff_eq_none, not_not] at hcon
        exact hthrow hcon
      · intro _
        exact ⟨result, rfl, hflag⟩

/-- Over the class `Database`, loading the history throws when a stored row of the
room has an empty text. -/
theorem sql_join_returns_true_iff {E : Sqlite} (hE : E.Lawful) (view : View)
    (m : ChannelsManager) (s : ConnectionId) (r : Identifier) (db : Database E) :
    (∃ result : JoinResult (sqlDatabase E),
        join view m s r db = some result ∧ result.flag = true) ↔
      r ∈ m.channels ∨
        (db.isOpen = true → ∀ row ∈ E.history db.store, row.roomId = r →
          row.author ≠ [] ∧ row.message ≠ []) := by
  rw [← AList.lookup_isSome, ← Database.getHistory_ne_none_iff hE db r]
  exact join_returns_true_iff

end ChannelsManager

end AppChat
