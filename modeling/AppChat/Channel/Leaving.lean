/-
  `Channel.Leaving`: what leaving one room, and leaving all of them, does to the maps.

  `leave_from_all_channels` walks over the rooms that `client_in_rooms` lists for the
  client, some of them more than once.  `leave` leaves one room and drops the whole
  entry of the client.
-/
import AppChat.Channel.Interference
import AppChat.Channel.Membership

set_option autoImplicit false

namespace AppChat

open Foundation Storage

namespace ChannelsManager

variable {D : DatabaseOps} {m m' : ChannelsManager} {c r : Identifier}

/-! ## Leaving all rooms -/

/-- The exact effect of `leave_from_all_channels(c)`: each room `c` is in loses its
entry, gains one notice, and hands it out once for every entry it had; nothing else
changes, and a second call does nothing. -/
structure LeftAll (view : View) (c : Identifier) (m m' : ChannelsManager)
    (deliveries : List Delivery) : Prop where
  left : ∀ r ch s, m.channels.lookup r = some ch → ch.subscribers.lookup c = some s →
    let notice := Channel.leaveNotice (view s).login r
    m'.channels.lookup r = some ⟨r, ch.subscribers.erase c, ch.historyRoom ++ [notice]⟩ ∧
      deliveries.filter (ChatState.handedBy r) = ch.subscribers.values.map fun sub => ⟨sub, notice⟩
  others : ∀ r, ¬ m.Subscribed c r →
    m'.channels.lookup r = m.channels.lookup r ∧ deliveries.filter (ChatState.handedBy r) = []
  clientInRooms : m'.clientInRooms = m.clientInRooms.erase c
  clientidToLogin : m'.clientidToLogin = m.clientidToLogin.erase c
  again : ∀ view', m'.leaveFromAllChannels view' c = (m', [])

theorem mem_getD_iff_indexed : r ∈ (m.clientInRooms.lookup c).getD [] ↔ m.Indexed c r := by
  unfold Indexed
  cases m.clientInRooms.lookup c <;> simp

theorem filter_leaveFromAllChannels (hm : m.Consistent) (view : View) (c r : Identifier) :
    (m.leaveFromAllChannels view c).2.filter (ChatState.handedBy r) =
      if r ∈ (m.clientInRooms.lookup c).getD [] then
        (m.channels.lookup r).elim [] fun ch => (ch.leave view c).2
      else [] := by
  unfold leaveFromAllChannels
  cases m.clientInRooms.lookup c with
  | none => simp
  | some rooms => exact ChatState.filter_leaveRooms view c r rooms hm.channelId_eq

theorem leftAll_leaveFromAllChannels (hm : m.Consistent) (view : View) (c : Identifier) :
    LeftAll view c m (m.leaveFromAllChannels view c).1 (m.leaveFromAllChannels view c).2 where
  left := by
    intro r ch s hch hs
    have hsubscribed : m.Subscribed c r := ⟨ch, hch, UnorderedMap.mem_iff_lookup.mpr ⟨s, hs⟩⟩
    have hlisted := mem_getD_iff_indexed.mpr ((hm.subscribed_iff c r).mp hsubscribed)
    have hid : ch.channelId = r := hm.channelId_eq r ch hch
    have hleave := Channel.leave_of_lookup view hs
    rw [hid] at hleave
    refine ⟨?_, ?_⟩
    · rw [lookup_leaveFromAllChannels, if_pos hlisted, hch, Option.map_some, hleave]
    · rw [filter_leaveFromAllChannels hm, if_pos hlisted, hch, Option.elim_some, hleave]
  others := by
    intro r hr
    have hlisted : r ∉ (m.clientInRooms.lookup c).getD [] := by
      rw [mem_getD_iff_indexed, ← hm.subscribed_iff]
      exact hr
    refine ⟨?_, ?_⟩
    · rw [lookup_leaveFromAllChannels, if_neg hlisted]
    · rw [filter_leaveFromAllChannels hm, if_neg hlisted]
  clientInRooms := leaveFromAllChannels_clientInRooms view m c
  clientidToLogin := leaveFromAllChannels_clientidToLogin view m c
  again := by
    intro view'
    refine leaveFromAllChannels_of_not_subscribed (consistent_leaveFromAllChannels hm view c) view' ?_
    intro r hr
    exact ((subscribed_leaveFromAllChannels hm view c c r).mp hr).2 rfl

/-- **Leaving everything.**  In every reachable state `leave_from_all_channels` has its
exact effect, for every client. -/
theorem leftAll_of_run {calls : List (ManagerCall D)} (h : Run (ManagerStep D) init calls m)
    (view : View) (c : Identifier) :
    LeftAll view c m (m.leaveFromAllChannels view c).1 (m.leaveFromAllChannels view c).2 :=
  leftAll_leaveFromAllChannels (consistent_of_run h) view c

/-- The connection 1 joins the room 5 twice, then the connection 2 joins it, and then
the client 1 leaves. -/
theorem leftAll_of_run_shared :
    let view : View := fun s => ⟨Int32.ofNat s, ascii "u"⟩
    let db : Tables := ⟨[], []⟩
    ∃ (m : ChannelsManager) (ch : Channel),
      Run (ManagerStep tableDatabase) init
        [.join view 1 5 db, .join view 1 5 db, .join view 2 5 db] m ∧
      m.channels.lookup 5 = some ch ∧ ch.subscribers.values = [2, 1] ∧
      LeftAll view 1 m (m.leaveFromAllChannels view 1).1 (m.leaveFromAllChannels view 1).2 := by
  intro view db
  let calls : List (ManagerCall tableDatabase) :=
    [.join view 1 5 db, .join view 1 5 db, .join view 2 5 db]
  have hend : (calls.foldlM (@ManagerCall.apply tableDatabase) init).map
      (fun m => (m.channels.lookup 5).map fun ch => ch.subscribers.values) = some (some [2, 1]) := by
    decide +kernel
  obtain ⟨m, hm, hvalues⟩ := Option.map_eq_some_iff.mp hend
  obtain ⟨ch, hch, hvalues⟩ := Option.map_eq_some_iff.mp hvalues
  have hrun : Run (ManagerStep tableDatabase) init calls m := Run.iff_foldlM.mpr hm
  exact ⟨m, ch, hrun, hch, hvalues, leftAll_of_run hrun view 1⟩

/-! ## Leaving one room -/

/-- A call of one of the four functions. -/
inductive LeaveCall (D : DatabaseOps) where
  | call (c : ManagerCall D)
  | leave (view : View) (clientId roomId : Identifier)

/-- A call that returns. -/
def LeaveStep (D : DatabaseOps) (m : ChannelsManager) : LeaveCall D → ChannelsManager → Prop
  | .call c, m' => ManagerStep D m c m'
  | .leave view clientId roomId, m' => m' = (m.leave view clientId roomId).1

/-- The room has no channel, or `client_in_rooms` lists no other room for the client. -/
def OnlyRoom (m : ChannelsManager) (c r : Identifier) : Prop :=
  r ∉ m.channels ∨ ∀ r', m.Indexed c r' → r' = r

/-- Every call of `leave` meets the condition. -/
def LeavesOnlyRoom {D : DatabaseOps} (m : ChannelsManager) : LeaveCall D → Prop
  | .call _ => True
  | .leave _ clientId roomId => m.OnlyRoom clientId roomId

/-- Exactly the membership of `c` in `r` is removed. -/
structure RemovesOne (c r : Identifier) (m m' : ChannelsManager) (deliveries : List Delivery) :
    Prop where
  gone : ¬ m'.Subscribed c r
  others : ∀ r', r' ≠ r → m'.channels.lookup r' = m.channels.lookup r'
  rooms : ((m'.clientInRooms.lookup c).getD []).filter (· ≠ r) =
    ((m.clientInRooms.lookup c).getD []).filter (· ≠ r)
  clients : ∀ c', c' ≠ c → (∀ r' s, m'.Holds r' c' s ↔ m.Holds r' c' s) ∧
    m'.clientInRooms.lookup c' = m.clientInRooms.lookup c' ∧
    m'.clientidToLogin.lookup c' = m.clientidToLogin.lookup c'
  later : ∀ view r', ¬ (m'.leaveFromAllChannels view c).1.Subscribed c r'
  unchanged : ¬ m.Subscribed c r → m' = m ∧ deliveries = []

/-- What `leave` does: nothing, or it leaves the channel of the room and drops the
client from both other maps. -/
theorem leave_cases (view : View) (m : ChannelsManager) (c r : Identifier) :
    ((m.clientInRooms.lookup c = none ∨ m.channels.lookup r = none) ∧
        m.leave view c r = (m, [])) ∨
      ∃ rooms ch, m.clientInRooms.lookup c = some rooms ∧ m.channels.lookup r = some ch ∧
        m.leave view c r =
          (⟨m.channels.insert r (ch.leave view c).1, m.clientInRooms.erase c,
            m.clientidToLogin.erase c⟩, (ch.leave view c).2) := by
  unfold leave
  cases hrooms : m.clientInRooms.lookup c with
  | none => exact Or.inl ⟨Or.inl rfl, rfl⟩
  | some rooms =>
      cases hch : m.channels.lookup r with
      | none => exact Or.inl ⟨Or.inr rfl, rfl⟩
      | some ch => exact Or.inr ⟨rooms, ch, rfl, rfl, rfl⟩

section Leave

variable {view : View} {rooms : List Identifier} {ch : Channel}

/-- The manager after a `leave` that found the client and the channel. -/
def afterLeave (view : View) (m : ChannelsManager) (c r : Identifier) (ch : Channel) :
    ChannelsManager :=
  ⟨m.channels.insert r (ch.leave view c).1, m.clientInRooms.erase c, m.clientidToLogin.erase c⟩

theorem holds_afterLeave (hch : m.channels.lookup r = some ch) (r' c' : Identifier)
    (s : ConnectionId) :
    (m.afterLeave view c r ch).Holds r' c' s ↔ m.Holds r' c' s ∧ ¬ (r' = r ∧ c' = c) := by
  unfold Holds afterLeave
  simp only [UnorderedMap.lookup_insert_eq]
  by_cases hr : r' = r
  · subst hr
    have herase := UnorderedMap.lookup_erase_eq ch.subscribers c c'
    by_cases hc : c' = c
    · simp [herase, hc]
    · simp [herase, hc, hch]
  · simp [hr]

theorem subscribed_afterLeave (hch : m.channels.lookup r = some ch) (c' r' : Identifier) :
    (m.afterLeave view c r ch).Subscribed c' r' ↔ m.Subscribed c' r' ∧ ¬ (r' = r ∧ c' = c) := by
  simp only [subscribed_iff_exists_holds, holds_afterLeave hch, exists_and_right]

theorem indexed_afterLeave (c' r' : Identifier) :
    (m.afterLeave view c r ch).Indexed c' r' ↔ m.Indexed c' r' ∧ c' ≠ c := by
  unfold Indexed afterLeave
  simp only [UnorderedMap.lookup_erase_eq]
  by_cases hc : c' = c
  · simp [hc]
  · simp [hc]

/-- Where the client is in no other room, dropping it keeps the maps in agreement. -/
theorem consistent_afterLeave (hm : m.Consistent) (hch : m.channels.lookup r = some ch)
    (honly : ∀ r', m.Indexed c r' → r' = r) : (m.afterLeave view c r ch).Consistent := by
  refine ⟨?_, ?_, ?_, ?_⟩
  · intro c' r'
    rw [subscribed_afterLeave hch, indexed_afterLeave, hm.subscribed_iff]
    constructor
    · rintro ⟨hindexed, hnot⟩
      refine ⟨hindexed, ?_⟩
      rintro rfl
      exact hnot ⟨honly r' hindexed, rfl⟩
    · rintro ⟨hindexed, hne⟩
      exact ⟨hindexed, fun hboth => hne hboth.2⟩
  · intro c'
    simp only [afterLeave, AList.mem_erase, hm.mem_iff]
  · intro c' rooms hc'
    simp only [afterLeave, UnorderedMap.lookup_erase_eq] at hc'
    split at hc'
    · cases hc'
    · exact hm.rooms_ne_nil c' rooms hc'
  · intro r' ch' hr'
    simp only [afterLeave, UnorderedMap.lookup_insert_eq] at hr'
    split at hr'
    · rename_i heq
      cases hr'
      rw [Channel.leave_channelId, heq]
      exact hm.channelId_eq r ch hch
    · exact hm.channelId_eq r' ch' hr'

end Leave

theorem consistent_leave (hm : m.Consistent) (view : View) (honly : m.OnlyRoom c r) :
    (m.leave view c r).1.Consistent := by
  rcases leave_cases view m c r with ⟨-, hnothing⟩ | ⟨rooms, ch, hrooms, hch, hleave⟩
  · rw [hnothing]
    exact hm
  · rw [hleave]
    refine consistent_afterLeave hm hch ?_
    rcases honly with hno | honly
    · exact absurd (UnorderedMap.mem_iff_lookup.mpr ⟨ch, hch⟩) hno
    · exact honly

/-- A run whose calls of `leave` meet the condition keeps the maps in agreement. -/
theorem consistent_of_leaveRun {calls : List (LeaveCall D)}
    (h : Run (Guarded LeavesOnlyRoom (LeaveStep D)) init calls m) : m.Consistent := by
  refine h.invariant ?_ represents_init.consistent
  rintro m call m' ⟨hguard, hstep⟩ hm
  cases call with
  | call call =>
      have hrepresents : m.Represents {p | m.Subscribed p.1 p.2} := ⟨hm, fun _ _ => Iff.rfl⟩
      exact (represents_step hstep hrepresents).consistent
  | leave view c r =>
      cases hstep
      exact consistent_leave hm view hguard

/-- The runs without `leave` are among them. -/
theorem leaveRun_of_run {calls : List (ManagerCall D)} (h : Run (ManagerStep D) m calls m') :
    Run (Guarded LeavesOnlyRoom (LeaveStep D)) m (calls.map .call) m' := by
  induction h with
  | nil m => exact .nil m
  | cons hstep _ ih => exact .cons ⟨trivial, hstep⟩ ih

/-- A client that is not listed is in no room, whatever is done to it. -/
theorem not_subscribed_of_lookup_none (hm : m.Consistent) (h : m.clientInRooms.lookup c = none)
    (r : Identifier) : ¬ m.Subscribed c r := by
  rw [hm.subscribed_iff]
  rintro ⟨rooms, hrooms, -⟩
  rw [h] at hrooms
  cases hrooms

/-- In a consistent state `leave` removes exactly the one membership if and only if the
room has no channel or the client is listed in no other room. -/
theorem removesOne_iff_of_consistent (hm : m.Consistent) (view : View) (c r : Identifier) :
    RemovesOne c r m (m.leave view c r).1 (m.leave view c r).2 ↔ m.OnlyRoom c r := by
  rcases leave_cases view m c r with ⟨hnone, hnothing⟩ | ⟨rooms, ch, hrooms, hch, hleave⟩
  · rw [hnothing]
    have hout : ¬ m.Subscribed c r := by
      rcases hnone with hrooms | hch
      · exact not_subscribed_of_lookup_none hm hrooms r
      · rintro ⟨ch, hsome, -⟩
        rw [hch] at hsome
        cases hsome
    have honly : m.OnlyRoom c r := by
      rcases hnone with hrooms | hch
      · refine Or.inr ?_
        rintro r' ⟨rooms, hsome, -⟩
        rw [hrooms] at hsome
        cases hsome
      · exact Or.inl (AList.lookup_eq_none.mp hch)
    refine iff_of_true ⟨hout, fun _ _ => rfl, rfl, fun _ _ => ⟨fun _ _ => Iff.rfl, rfl, rfl⟩, ?_,
      fun _ => ⟨rfl, rfl⟩⟩ honly
    intro view' r' hsub
    exact ((subscribed_leaveFromAllChannels hm view' c c r').mp hsub).2 rfl
  · have hafter : (m.leave view c r).1 = m.afterLeave view c r ch := by rw [hleave]; rfl
    rw [hafter]
    constructor
    · intro h
      refine Or.inr ?_
      rintro r' ⟨rooms', hrooms', hmem⟩
      by_contra hne
      have hkept := h.rooms
      simp only [afterLeave, AList.lookup_erase, hrooms', Option.getD_none, Option.getD_some,
        List.filter_nil] at hkept
      have hlisted : r' ∈ rooms'.filter (· ≠ r) :=
        List.mem_filter.mpr ⟨hmem, decide_eq_true hne⟩
      rw [← hkept] at hlisted
      exact absurd hlisted List.not_mem_nil
    · intro honly
      have honly : ∀ r', m.Indexed c r' → r' = r :=
        honly.resolve_left fun hno => hno (UnorderedMap.mem_iff_lookup.mpr ⟨ch, hch⟩)
      refine ⟨?_, ?_, ?_, ?_, ?_, ?_⟩
      · rw [subscribed_afterLeave hch]
        exact fun h => h.2 ⟨rfl, rfl⟩
      · intro r' hne
        simp [afterLeave, hne]
      · simp only [afterLeave, AList.lookup_erase, hrooms, Option.getD_none, Option.getD_some,
          List.filter_nil]
        refine (List.filter_eq_nil_iff.mpr ?_).symm
        intro r' hmem hne
        exact of_decide_eq_true hne (honly r' ⟨rooms, hrooms, hmem⟩)
      · intro c' hne
        refine ⟨?_, ?_, ?_⟩
        · intro r' s
          rw [holds_afterLeave hch]
          exact ⟨And.left, fun h => ⟨h, fun hboth => hne hboth.2⟩⟩
        · simp [afterLeave, hne]
        · simp [afterLeave, hne]
      · intro view' r' hsub
        have hafter : (m.afterLeave view c r ch).Consistent := consistent_afterLeave hm hch honly
        exact ((subscribed_leaveFromAllChannels hafter view' c c r').mp hsub).2 rfl
      · -- a listed client is in the room, its only one
        intro hout
        obtain ⟨r', hr'⟩ := List.exists_mem_of_ne_nil rooms (hm.rooms_ne_nil c rooms hrooms)
        have hindexed : m.Indexed c r' := ⟨rooms, hrooms, hr'⟩
        rw [honly r' hindexed, ← hm.subscribed_iff] at hindexed
        exact absurd hindexed hout

/-- **Leaving one room** removes exactly that membership if and only if the room has no
channel or `client_in_rooms` lists no other room for the client. -/
theorem leave_removesOne_iff {calls : List (LeaveCall D)}
    (h : Run (Guarded LeavesOnlyRoom (LeaveStep D)) init calls m) (view : View)
    (c r : Identifier) :
    RemovesOne c r m (m.leave view c r).1 (m.leave view c r).2 ↔ m.OnlyRoom c r :=
  removesOne_iff_of_consistent (consistent_of_leaveRun h) view c r

/-- A client in one room, twice, leaves it. -/
theorem leave_removesOne_iff_twice :
    let view : View := fun s => ⟨Int32.ofNat s, ascii "u"⟩
    ∃ m : ChannelsManager, m.clientInRooms.lookup 1 = some [5, 5] ∧
      RemovesOne 1 5 m (m.leave view 1 5).1 (m.leave view 1 5).2 := by
  intro view
  let db : Tables := ⟨[], []⟩
  let calls : List (ManagerCall tableDatabase) := [.join view 1 5 db, .join view 1 5 db]
  have hend : (calls.foldlM (@ManagerCall.apply tableDatabase) init).map
      (fun m => m.clientInRooms.lookup 1) = some (some [5, 5]) := by
    decide +kernel
  obtain ⟨m, hm, hrooms⟩ := Option.map_eq_some_iff.mp hend
  have hrun : Run (ManagerStep tableDatabase) init calls m := Run.iff_foldlM.mpr hm
  have honly : m.OnlyRoom 1 5 := by
    refine Or.inr ?_
    rintro r' ⟨rooms, hsome, hmem⟩
    rw [hrooms, Option.some.injEq] at hsome
    subst hsome
    simpa using hmem
  exact ⟨m, hrooms, (leave_removesOne_iff (leaveRun_of_run hrun) view 1 5).mpr honly⟩

/-- A client in two rooms leaves one; `leave_from_all_channels` does not take it out of
the other. -/
theorem not_leave_removesOne_two :
    ¬ ∀ (calls : List (ManagerCall tableDatabase)) (m : ChannelsManager),
      Run (ManagerStep tableDatabase) init calls m → ∀ (view : View) (c r : Identifier),
        RemovesOne c r m (m.leave view c r).1 (m.leave view c r).2 := by
  intro h
  let view : View := fun s => ⟨Int32.ofNat s, ascii "u"⟩
  let db : Tables := ⟨[], []⟩
  let calls : List (ManagerCall tableDatabase) := [.join view 1 5 db, .join view 1 6 db]
  have hend : (calls.foldlM (@ManagerCall.apply tableDatabase) init).map
      (fun m => (((m.leave view 1 5).1.leaveFromAllChannels view 1).1.channels.lookup 6).map
        fun ch => ch.subscribers.lookup 1) = some (some (some 1)) := by
    decide +kernel
  obtain ⟨m, hm, hroom⟩ := Option.map_eq_some_iff.mp hend
  obtain ⟨ch, hch, hsub⟩ := Option.map_eq_some_iff.mp hroom
  have hrun : Run (ManagerStep tableDatabase) init calls m := Run.iff_foldlM.mpr hm
  exact (h calls m hrun view 1 5).later view 6
    ⟨ch, hch, UnorderedMap.mem_iff_lookup.mpr ⟨1, hsub⟩⟩

end ChannelsManager

end AppChat
