/-
  `Channel.Interference`: rooms do not interfere.

  What happens in one room is the same whether or not anybody joins or writes to
  the other rooms.  Rooms meet in the index `client_in_rooms`, which a client that
  leaves walks for all its rooms at once; but of that index one room depends only
  on whether it is listed itself.
-/
import AppChat.Channel.Replay
import AppChat.Channel.ChatState
import AppChat.Foundation.Unwinding

set_option autoImplicit false

namespace AppChat

open Foundation Storage

/-- The event concerns the room `r`: a join or a text to another room does not. -/
def ChatEvent.concerns (r : Identifier) : ChatEvent → Bool
  | .join _ _ roomId => roomId = r
  | .text msg => msg.roomId = r
  | .leaveAll _ _ => true

/-- What there is to see of one room: its channel with the subscribers and the
history, its stored rows, and what the channel has handed out. -/
structure RoomView where
  channel : Option Channel
  rows : List TextSendData
  handed : List Delivery

namespace ChatState

/-- A channel hands out messages of its own room only. -/
def handedBy (r : Identifier) (d : Delivery) : Bool := d.data.roomId = r

/-- What can be seen of the room `r`, when these deliveries have been made. -/
def roomView (r : Identifier) (st : ChatState tableDatabase) (deliveries : List Delivery) :
    RoomView where
  channel := st.manager.channels.lookup r
  rows := st.db.history.filter (·.roomId = r)
  handed := deliveries.filter (handedBy r)

/-! ## A channel and its room -/

/-- The channel of the room `r` holds messages of the room only. -/
structure OfRoom (r : Identifier) (ch : Channel) : Prop where
  channelId : ch.channelId = r
  historyRoom : ∀ data ∈ ch.historyRoom, data.roomId = r

/-- Every channel is the channel of its room. -/
def Tidy (st : ChatState tableDatabase) : Prop :=
  ∀ r ch, st.manager.channels.lookup r = some ch → OfRoom r ch

namespace OfRoom

variable {r : Identifier} {ch : Channel}

theorem notification (h : OfRoom r ch) {data : TextSendData} (hdata : data.roomId = r) :
    OfRoom r (ch.notification data).1 where
  channelId := h.channelId
  historyRoom := by
    intro d hd
    rcases List.mem_append.mp hd with hold | hnew
    · exact h.historyRoom d hold
    · rw [List.mem_singleton] at hnew
      rw [hnew, hdata]

theorem join (h : OfRoom r ch) (view : View) (s : ConnectionId) : OfRoom r (ch.join view s).1 where
  channelId := h.channelId
  historyRoom := by
    have hnotice : (Channel.joinNotice (view s).login ch.channelId).roomId = r := h.channelId
    exact (h.notification hnotice).historyRoom

theorem leave (h : OfRoom r ch) (view : View) (c : Identifier) : OfRoom r (ch.leave view c).1 := by
  cases hsub : ch.subscribers.lookup c with
  | none =>
      rw [Channel.leave_of_notMem view (AList.lookup_eq_none.mp hsub)]
      exact h
  | some sub =>
      have hnotice : (Channel.leaveNotice (view sub).login ch.channelId).roomId = r := h.channelId
      have hnotified := h.notification hnotice
      rw [Channel.leave_of_lookup view hsub]
      exact ⟨hnotified.channelId, hnotified.historyRoom⟩

/-! Every call hands out messages of the room. -/

theorem handed_notification {data : TextSendData} (hdata : data.roomId = r) :
    ∀ d ∈ (ch.notification data).2, d.data.roomId = r := by
  intro d hd
  obtain ⟨sub, -, rfl⟩ := List.mem_map.mp hd
  exact hdata

theorem handed_join (h : OfRoom r ch) (view : View) (s : ConnectionId) :
    ∀ d ∈ (ch.join view s).2, d.data.roomId = r := by
  intro d hd
  rcases List.mem_append.mp hd with hreplay | hnotified
  · obtain ⟨data, hdata, rfl⟩ := List.mem_map.mp hreplay
    exact h.historyRoom data hdata
  · obtain ⟨sub, -, rfl⟩ := List.mem_map.mp hnotified
    exact h.channelId

theorem handed_leave (h : ch.channelId = r) (view : View) (c : Identifier) :
    ∀ d ∈ (ch.leave view c).2, d.data.roomId = r := by
  cases hsub : ch.subscribers.lookup c with
  | none =>
      rw [Channel.leave_of_notMem view (AList.lookup_eq_none.mp hsub)]
      exact fun d hd => absurd hd List.not_mem_nil
  | some sub =>
      rw [Channel.leave_of_lookup view hsub]
      intro d hd
      obtain ⟨other, -, rfl⟩ := List.mem_map.mp hd
      exact h

end OfRoom

theorem filter_handedBy_self {r : Identifier} {deliveries : List Delivery}
    (h : ∀ d ∈ deliveries, d.data.roomId = r) : deliveries.filter (handedBy r) = deliveries := by
  rw [List.filter_eq_self]
  exact fun d hd => decide_eq_true (h d hd)

theorem filter_handedBy_of_ne {r r' : Identifier} {deliveries : List Delivery}
    (h : ∀ d ∈ deliveries, d.data.roomId = r') (hne : r' ≠ r) :
    deliveries.filter (handedBy r) = [] := by
  rw [List.filter_eq_nil_iff]
  intro d hd hr
  exact hne ((h d hd).symm.trans (of_decide_eq_true hr))

/-! ## What an event does to one room -/

/-- The room is listed for the client. -/
def Listed (st : ChatState tableDatabase) (c r : Identifier) : Prop :=
  r ∈ (st.manager.clientInRooms.lookup c).getD []

/-- The channel a join of the room enters: the one that is there, or a new one with
the stored rows. -/
def channelOf (st : ChatState tableDatabase) (r : Identifier) : Channel :=
  (st.manager.channels.lookup r).getD ⟨r, ∅, st.db.history.filter (·.roomId = r)⟩

/-- A join of a room enters its channel and touches no other. -/
theorem exists_join (st : ChatState tableDatabase) (view : View) (s : ConnectionId) (roomId : Identifier) :
    ∃ st' : ChatState tableDatabase,
      st.apply (.join view s roomId) = some (st', ((st.channelOf roomId).join view s).2) ∧
      (∀ r, st'.manager.channels.lookup r =
        if r = roomId then some ((st.channelOf roomId).join view s).1
        else st.manager.channels.lookup r) ∧
      (∀ c r, st'.Listed c r ↔ st.Listed c r ∨ (c = (view s).clientId ∧ r = roomId)) ∧
      st'.db = st.db := by
  cases hjoin : st.manager.join view s roomId st.db with
  | none =>
      obtain ⟨-, hload⟩ := ChannelsManager.join_eq_none_iff.mp hjoin
      cases hload
  | some result =>
      obtain ⟨ch, hch, hlookup, hrooms, -, -, hdeliveries⟩ := ChannelsManager.join_cases hjoin
      have hentered : ch = st.channelOf roomId ∧ result.db = st.db := by
        rcases hch with ⟨hsome, hdb⟩ | ⟨hnone, history, hload, rfl⟩
        · exact ⟨by rw [channelOf, hsome]; rfl, hdb⟩
        · have hpair : (st.db, some (st.db.history.filter (·.roomId = roomId))) =
              (result.db, some history) := hload
          simp only [Prod.mk.injEq, Option.some.injEq] at hpair
          exact ⟨by rw [channelOf, hnone, ← hpair.2]; rfl, hpair.1.symm⟩
      obtain ⟨rfl, hdb⟩ := hentered
      refine ⟨⟨result.manager, result.db⟩, ?_, hlookup, ?_, hdb⟩
      · simp [apply, ChatState.join, hjoin, hdeliveries]
      · intro c r
        unfold Listed
        rw [hrooms, ChannelsManager.lookup_addRoom]
        by_cases hc : c = (view s).clientId
        · subst hc
          simp
        · simp [hc]

section Events

variable {st : ChatState tableDatabase} (hst : st.Tidy)
include hst

theorem ofRoom_channelOf (r : Identifier) : OfRoom r (st.channelOf r) := by
  unfold channelOf
  cases hroom : st.manager.channels.lookup r with
  | some ch => exact hst r ch hroom
  | none =>
      refine ⟨rfl, ?_⟩
      intro data hdata
      exact of_decide_eq_true (List.mem_filter.mp hdata).2

theorem tidy_join {st' : ChatState tableDatabase} {view : View} {s : ConnectionId}
    {roomId : Identifier}
    (hlookup : ∀ r, st'.manager.channels.lookup r =
      if r = roomId then some ((st.channelOf roomId).join view s).1
      else st.manager.channels.lookup r) : st'.Tidy := by
  intro r ch hr
  rw [hlookup] at hr
  split at hr
  · rename_i heq
    cases hr
    rw [heq]
    exact (ofRoom_channelOf hst roomId).join view s
  · exact hst r ch hr

theorem tidy_text (msg : TextSendData) : (st.text msg).1.Tidy := by
  intro r ch hr
  have hr' := (ChannelsManager.lookup_sendToChannel st.manager msg r).symm.trans hr
  split at hr'
  · rename_i heq
    obtain ⟨old, hold, rfl⟩ := Option.map_eq_some_iff.mp hr'
    exact (hst r old hold).notification heq.symm
  · exact hst r ch hr'

theorem tidy_leaveAll (view : View) (c : Identifier) : (st.leaveAll view c).1.Tidy := by
  intro r ch hr
  have hr' := (ChannelsManager.lookup_leaveFromAllChannels view st.manager c r).symm.trans hr
  split at hr'
  · obtain ⟨old, hold, rfl⟩ := Option.map_eq_some_iff.mp hr'
    exact (hst r old hold).leave view c
  · exact hst r ch hr'

end Events

theorem deliveries_text (st : ChatState tableDatabase) (msg : TextSendData) :
    (st.text msg).2 =
      (st.manager.channels.lookup msg.roomId).elim [] fun ch => (ch.notification msg).2 := by
  show (st.manager.sendToChannel msg).2 = _
  unfold ChannelsManager.sendToChannel
  cases st.manager.channels.lookup msg.roomId <;> rfl

/-- A text is handed out by the channel of its room. -/
theorem filter_text (st : ChatState tableDatabase) (msg : TextSendData) (r : Identifier) :
    (st.text msg).2.filter (handedBy r) =
      if msg.roomId = r then
        (st.manager.channels.lookup r).elim [] fun ch => (ch.notification msg).2
      else [] := by
  have hhanded : ∀ d ∈ (st.text msg).2, d.data.roomId = msg.roomId := by
    rw [deliveries_text]
    cases st.manager.channels.lookup msg.roomId with
    | none => exact fun d hd => absurd hd List.not_mem_nil
    | some ch => exact OfRoom.handed_notification rfl
  by_cases hr : msg.roomId = r
  · subst hr
    rw [if_pos rfl, filter_handedBy_self hhanded, deliveries_text]
  · rw [if_neg hr, filter_handedBy_of_ne hhanded hr]

/-- The loop over the rooms of a client hands out, in one room, what the channel of
that room hands out when the client leaves. -/
theorem filter_leaveRooms (view : View) (c r : Identifier) (rooms : List Identifier)
    {channels : UnorderedMap Identifier Channel}
    (hchannels : ∀ r ch, channels.lookup r = some ch → ch.channelId = r) :
    (ChannelsManager.leaveRooms view c rooms channels).2.filter (handedBy r) =
      if r ∈ rooms then (channels.lookup r).elim [] fun ch => (ch.leave view c).2 else [] := by
  induction rooms generalizing channels with
  | nil => rfl
  | cons room rooms ih =>
      unfold ChannelsManager.leaveRooms
      cases hroom : channels.lookup room with
      | none =>
          rw [ih hchannels]
          by_cases hr : r = room
          · subst hr
            simp [hroom]
          · simp [hr]
      | some ch =>
          have hch := hchannels room ch hroom
          have hnext : ∀ r' ch', (channels.insert room (ch.leave view c).1).lookup r' = some ch' →
              ch'.channelId = r' := by
            intro r' ch' hr'
            rw [UnorderedMap.lookup_insert_eq] at hr'
            split at hr'
            · rename_i heq
              cases hr'
              rw [Channel.leave_channelId, heq]
              exact hch
            · exact hchannels r' ch' hr'
          rw [List.filter_append, ih hnext, UnorderedMap.lookup_insert_eq]
          by_cases hr : r = room
          · -- a second visit hands out nothing
            subst hr
            rw [filter_handedBy_self (OfRoom.handed_leave hch view c)]
            simp [hroom, Channel.leave_leave]
          · rw [filter_handedBy_of_ne (OfRoom.handed_leave hch view c) (Ne.symm hr)]
            simp [hr]

theorem filter_leaveAll {st : ChatState tableDatabase} (hst : st.Tidy) (view : View)
    (c r : Identifier) :
    (st.leaveAll view c).2.filter (handedBy r) =
      if r ∈ (st.manager.clientInRooms.lookup c).getD [] then
        (st.manager.channels.lookup r).elim [] fun ch => (ch.leave view c).2
      else [] := by
  have hdeliveries : (st.leaveAll view c).2 = (ChannelsManager.leaveRooms view c
      ((st.manager.clientInRooms.lookup c).getD []) st.manager.channels).2 := by
    show (st.manager.leaveFromAllChannels view c).2 = _
    unfold ChannelsManager.leaveFromAllChannels
    cases st.manager.clientInRooms.lookup c <;> rfl
  rw [hdeliveries, filter_leaveRooms view c r _ fun r ch hr => (hst r ch hr).channelId]

theorem listed_text {st : ChatState tableDatabase} (msg : TextSendData) (c r : Identifier) :
    (st.text msg).1.Listed c r ↔ st.Listed c r := by
  have hsame := ChannelsManager.sendToChannel_clientInRooms st.manager msg
  unfold Listed text
  simp only [hsame]

theorem listed_leaveAll {st : ChatState tableDatabase} (view : View) (c c' r : Identifier) :
    (st.leaveAll view c).1.Listed c' r ↔ c' ≠ c ∧ st.Listed c' r := by
  have herase := ChannelsManager.leaveFromAllChannels_clientInRooms view st.manager c
  unfold Listed leaveAll
  simp only [herase, UnorderedMap.lookup_erase_eq]
  by_cases hc : c' = c
  · simp [hc]
  · simp [hc]

/-! ## Two runs -/

/-- Two states that look alike in the room `r`. -/
structure SameRoom (r : Identifier) (st st' : ChatState tableDatabase) : Prop where
  tidy : st.Tidy
  tidy' : st'.Tidy
  channel : st.manager.channels.lookup r = st'.manager.channels.lookup r
  rows : st.db.history.filter (·.roomId = r) = st'.db.history.filter (·.roomId = r)
  listed : ∀ c, st.Listed c r ↔ st'.Listed c r

theorem SameRoom.refl {st : ChatState tableDatabase} (h : st.Tidy) (r : Identifier) :
    SameRoom r st st :=
  ⟨h, h, rfl, rfl, fun _ => Iff.rfl⟩

section Steps

variable {r : Identifier} {st st' : ChatState tableDatabase} (h : SameRoom r st st')
include h

/-- An event of another room shows nothing in this one. -/
theorem sameRoom_drop {e : ChatEvent} (he : e.concerns r = false) :
    ∃ st₁ out, st.apply e = some (st₁, out) ∧ SameRoom r st₁ st' ∧
      out.filter (handedBy r) = [] := by
  cases e with
  | join view s roomId =>
      have hne : roomId ≠ r := of_decide_eq_false he
      obtain ⟨st₁, happly, hlookup, hlisted, hdb⟩ := exists_join st view s roomId
      refine ⟨st₁, _, happly, ⟨tidy_join h.tidy hlookup, h.tidy', ?_, ?_, ?_⟩, ?_⟩
      · rw [hlookup, if_neg (Ne.symm hne)]
        exact h.channel
      · rw [hdb]
        exact h.rows
      · intro c
        rw [hlisted, h.listed, or_iff_left]
        exact fun hr => hne hr.2.symm
      · exact filter_handedBy_of_ne ((ofRoom_channelOf h.tidy roomId).handed_join view s) hne
  | text msg =>
      have hne : msg.roomId ≠ r := of_decide_eq_false he
      refine ⟨(st.text msg).1, (st.text msg).2, rfl,
        ⟨tidy_text h.tidy msg, h.tidy', ?_, ?_, ?_⟩, ?_⟩
      · rw [← h.channel]
        refine (ChannelsManager.lookup_sendToChannel st.manager msg r).trans ?_
        rw [if_neg (Ne.symm hne)]
      · rw [← h.rows]
        have hnew : [msg].filter (·.roomId = r) = [] := by simp [hne]
        exact (List.filter_append ..).trans (by rw [hnew, List.append_nil])
      · intro c
        rw [listed_text, h.listed]
      · rw [filter_text, if_neg hne]
  | leaveAll view c => cases he

/-- An event of this room shows the same on both sides. -/
theorem sameRoom_keep {e : ChatEvent} (he : e.concerns r = true) :
    ∃ st₁ st₁' out out', st.apply e = some (st₁, out) ∧ st'.apply e = some (st₁', out') ∧
      SameRoom r st₁ st₁' ∧ out.filter (handedBy r) = out'.filter (handedBy r) := by
  cases e with
  | join view s roomId =>
      have heq : roomId = r := of_decide_eq_true he
      subst heq
      obtain ⟨st₁, happly, hlookup, hlisted, hdb⟩ := exists_join st view s roomId
      obtain ⟨st₁', happly', hlookup', hlisted', hdb'⟩ := exists_join st' view s roomId
      have hchannel : st.channelOf roomId = st'.channelOf roomId := by
        unfold channelOf
        rw [h.channel, h.rows]
      refine ⟨st₁, st₁', _, _, happly, happly',
        ⟨tidy_join h.tidy hlookup, tidy_join h.tidy' hlookup', ?_, ?_, ?_⟩, ?_⟩
      · rw [hlookup, hlookup', if_pos rfl, if_pos rfl, hchannel]
      · rw [hdb, hdb']
        exact h.rows
      · intro c
        rw [hlisted, hlisted', h.listed]
      · rw [hchannel]
  | text msg =>
      have heq : msg.roomId = r := of_decide_eq_true he
      subst heq
      refine ⟨(st.text msg).1, (st'.text msg).1, (st.text msg).2, (st'.text msg).2, rfl, rfl,
        ⟨tidy_text h.tidy msg, tidy_text h.tidy' msg, ?_, ?_, ?_⟩, ?_⟩
      · refine (ChannelsManager.lookup_sendToChannel st.manager msg _).trans ?_
        rw [h.channel]
        exact (ChannelsManager.lookup_sendToChannel st'.manager msg _).symm
      · refine (List.filter_append ..).trans ?_
        rw [h.rows]
        exact (List.filter_append ..).symm
      · intro c
        rw [listed_text, listed_text, h.listed]
      · rw [filter_text, filter_text, h.channel]
  | leaveAll view c =>
      have hc : r ∈ (st.manager.clientInRooms.lookup c).getD [] ↔
          r ∈ (st'.manager.clientInRooms.lookup c).getD [] := h.listed c
      refine ⟨(st.leaveAll view c).1, (st'.leaveAll view c).1, (st.leaveAll view c).2,
        (st'.leaveAll view c).2, rfl, rfl, ⟨tidy_leaveAll h.tidy view c, tidy_leaveAll h.tidy' view c, ?_, h.rows, ?_⟩, ?_⟩
      · refine (ChannelsManager.lookup_leaveFromAllChannels view st.manager c r).trans ?_
        simp only [h.channel, hc]
        exact (ChannelsManager.lookup_leaveFromAllChannels view st'.manager c r).symm
      · intro c'
        rw [listed_leaveAll, listed_leaveAll, h.listed]
      · rw [filter_leaveAll h.tidy, filter_leaveAll h.tidy', h.channel]
        simp only [hc]

end Steps

theorem tidy_of_run {db : Tables} {es : List ChatEvent} {st : ChatState tableDatabase}
    (h : Run (ChatState.Step tableDatabase) (init db) es st) : st.Tidy := by
  have hinit : (init db : ChatState tableDatabase).Tidy := by
    intro r ch hr
    cases hr
  refine h.invariant ?_ hinit
  rintro st e st' ⟨out, happly⟩ hst
  cases e with
  | join view s roomId =>
      obtain ⟨st₁, happly', hlookup, -⟩ := exists_join st view s roomId
      rw [happly', Option.some.injEq, Prod.mk.injEq] at happly
      rw [← happly.1]
      exact tidy_join hst hlookup
  | text msg =>
      cases happly
      exact tidy_text hst msg
  | leaveAll view c =>
      cases happly
      exact tidy_leaveAll hst view c

/-- **Rooms do not interfere.**  From any state a process can reach, run any events
and run them again without the joins and texts of other rooms: the channel of the
room `r`, its stored rows and what it hands out are the same. -/
theorem roomView_filter {db : Tables} {before : List ChatEvent} {st : ChatState tableDatabase}
    (h : Run (ChatState.Step tableDatabase) (init db) before st) (r : Identifier)
    (es : List ChatEvent) :
    ∃ st₁ st₂ out₁ out₂, runAll apply st es = some (st₁, out₁) ∧
      runAll apply st (es.filter (ChatEvent.concerns r)) = some (st₂, out₂) ∧
      st₁.roomView r out₁ = st₂.roomView r out₂ := by
  obtain ⟨st₁, st₂, out₁, out₂, hrun₁, hrun₂, hsame, hhanded⟩ :=
    @unwinding _ _ _ (apply) (SameRoom r) (ChatEvent.concerns r) (handedBy r)
      (fun _ _ _ hR he => sameRoom_drop hR he) (fun _ _ _ hR he => sameRoom_keep hR he)
      st st (SameRoom.refl (tidy_of_run h) r) es
  refine ⟨st₁, st₂, out₁, out₂, hrun₁, hrun₂, ?_⟩
  unfold roomView
  rw [hsame.channel, hsame.rows, hhanded]

/-- Two clients, two rooms: client 2 joins both rooms, client 1 writes to both, and
client 2 leaves. -/
theorem roomView_filter_session :
    let view : View := fun s => ⟨Int32.ofNat s, ascii "u"⟩
    let es : List ChatEvent :=
      [.join view 2 6, .join view 2 5, .text ⟨6, ascii "u", ascii "a"⟩,
        .text ⟨5, ascii "u", ascii "b"⟩, .leaveAll view 2]
    ∃ st₁ st₂ out₁ out₂, runAll apply (init (⟨[], []⟩ : Tables)) es = some (st₁, out₁) ∧
      runAll apply (init (⟨[], []⟩ : Tables)) (es.filter (ChatEvent.concerns 5)) =
        some (st₂, out₂) ∧
      st₁.roomView 5 out₁ = st₂.roomView 5 out₂ := by
  intro view es
  exact roomView_filter (.nil _) 5 es

end ChatState

end AppChat
