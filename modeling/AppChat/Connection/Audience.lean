/-
  `Connection.Audience`: what the clients that have joined a room have been handed of it.

  A join replays the history to the joiner, every time.  A client that has joined a room
  once has been handed its history; one that has joined again has been handed more, and
  never gets back to the history alone.
-/
import AppChat.Channel.Leaving
import AppChat.Connection.Subscriptions

set_option autoImplicit false

namespace AppChat

open Foundation Storage

/-! ## One channel -/

namespace Channel

/-- How the connection `s`, whose account is `id`, follows a room: the channel of the
room, how often `s` has joined it, and what `s` has been handed of it.  One that has
joined has one entry, under its account, and has been handed something and then the
history; the something is nothing just when it has joined once. -/
def Follows (id : Identifier) (s : ConnectionId) (room : Option Channel) :
    Nat → List TextSendData → Prop
  | 0, heard => (∀ ch c, room = some ch → ch.subscribers.lookup c ≠ some s) ∧ heard = []
  | n + 1, heard => ∃ ch extra, room = some ch ∧
      (∀ c, ch.subscribers.lookup c = some s ↔ c = id) ∧ ch.historyRoom ≠ [] ∧
      heard = extra ++ ch.historyRoom ∧ (extra = [] ↔ n = 0)

namespace Follows

variable {id : Identifier} {s t : ConnectionId} {room : Option Channel} {ch ch' : Channel} {n : Nat}
  {heard : List TextSendData}

/-- One that follows a room has its entries under its account. -/
theorem eq_of_lookup (h : Follows id s (some ch) n heard) {c : Identifier}
    (hc : ch.subscribers.lookup c = some s) : c = id := by
  cases n with
  | zero => exact absurd hc (h.1 ch c rfl)
  | succ n =>
      obtain ⟨ch', extra, hch, hentry, -⟩ := h
      cases hch
      exact (hentry c).mp hc

/-- A new channel has no subscribers. -/
theorem enter (h : Follows id s room n heard)
    (hroom : room = some ch ∨ (room = none ∧ ch.subscribers = ∅)) :
    Follows id s (some ch) n heard := by
  rcases hroom with rfl | ⟨rfl, hempty⟩
  · exact h
  · cases n with
    | zero =>
        refine ⟨?_, h.2⟩
        rintro _ c ⟨⟩
        rw [hempty]
        simp
    | succ n =>
        obtain ⟨_, _, hnone, -⟩ := h
        cases hnone

/-- The entries of others do not matter. -/
theorem congr (h : Follows id s (some ch) n heard)
    (hentry : ∀ c, ch'.subscribers.lookup c = some s ↔ ch.subscribers.lookup c = some s)
    (hhistory : ch'.historyRoom = ch.historyRoom) : Follows id s (some ch') n heard := by
  cases n with
  | zero =>
      refine ⟨?_, h.2⟩
      rintro _ c ⟨⟩ hc
      exact h.1 ch c rfl ((hentry c).mp hc)
  | succ n =>
      obtain ⟨_, extra, ⟨⟩, hown, hne, hheard, hextra⟩ := h
      refine ⟨ch', extra, rfl, fun c => (hentry c).trans (hown c), ?_, ?_, hextra⟩
      · rwa [hhistory]
      · rwa [hhistory]

/-- A message is handed to everyone who has joined, once, and to nobody else. -/
theorem notified (h : Follows id s (some ch) n heard) (data : TextSendData)
    (hentry : ∀ c, ch'.subscribers.lookup c = some s ↔ ch.subscribers.lookup c = some s)
    (hhistory : ch'.historyRoom = ch.historyRoom ++ [data]) :
    Follows id s (some ch') n
      (heard ++ handedTo s (ch.subscribers.values.map fun sub => ⟨sub, data⟩)) := by
  rw [handedTo_map]
  cases n with
  | zero =>
      obtain ⟨hnone, rfl⟩ := h
      have hcount : ch.subscribers.values.count s = 0 := by
        rw [List.count_eq_zero]
        intro hmem
        obtain ⟨c, hc⟩ := UnorderedMap.mem_values.mp hmem
        exact hnone ch c rfl hc
      refine ⟨?_, by rw [hcount]; rfl⟩
      rintro _ c ⟨⟩ hc
      exact hnone ch c rfl ((hentry c).mp hc)
  | succ n =>
      obtain ⟨_, extra, ⟨⟩, hown, -, hheard, hextra⟩ := h
      have hcount : ch.subscribers.values.count s = 1 :=
        UnorderedMap.count_values_eq_one ((hown id).mpr rfl) fun c hc => (hown c).mp hc
      refine ⟨ch', extra, rfl, fun c => (hentry c).trans (hown c), ?_, ?_, hextra⟩
      · rw [hhistory]
        simp
      · rw [hcount, hheard, hhistory, List.replicate_one, List.append_assoc]

/-- Another connection joins. -/
theorem join_other (h : Follows id s (some ch) n heard) (view : View) (hne : s ≠ t) :
    Follows id s (some (ch.join view t).1) n (heard ++ handedTo s (ch.join view t).2) := by
  let between : Channel :=
    { ch with subscribers := ch.subscribers.tryEmplace (view t).clientId t }
  have hentry : ∀ c, between.subscribers.lookup c = some s ↔ ch.subscribers.lookup c = some s := by
    intro c
    show (ch.subscribers.tryEmplace (view t).clientId t).lookup c = some s ↔ _
    rw [UnorderedMap.lookup_tryEmplace]
    split
    · rename_i hc
      rw [hc]
      cases ch.subscribers.lookup (view t).clientId with
      | none => simp [Ne.symm hne]
      | some u => rfl
    · rfl
  have hbetween : Follows id s (some between) n heard := h.congr hentry rfl
  have hnotified := hbetween.notified (joinNotice (view t).login ch.channelId)
    (fun _ => Iff.rfl : ∀ c, (ch.join view t).1.subscribers.lookup c = some s ↔ _) rfl
  rw [join, handedTo_append, handedTo_replay, if_neg hne, List.nil_append]
  exact hnotified

/-- The connection itself joins.  It has an entry already, or its account is free. -/
theorem join_self (h : Follows id s (some ch) n heard) (view : View) (hid : (view s).clientId = id)
    (hfree : n = 0 → ch.subscribers.lookup id = none) :
    Follows id s (some (ch.join view s).1) (n + 1) (heard ++ handedTo s (ch.join view s).2) := by
  let between : Channel := { ch with subscribers := ch.subscribers.tryEmplace (view s).clientId s }
  have hentry : ∀ c, between.subscribers.lookup c = some s ↔ c = id := by
    intro c
    show (ch.subscribers.tryEmplace (view s).clientId s).lookup c = some s ↔ _
    rw [UnorderedMap.lookup_tryEmplace, hid]
    cases n with
    | zero =>
        split
        · rename_i hc
          rw [hfree rfl]
          exact iff_of_true rfl hc
        · rename_i hc
          exact iff_of_false (h.1 ch c rfl) hc
    | succ n =>
        obtain ⟨_, _, ⟨⟩, hown, -⟩ := h
        split
        · rename_i hc
          rw [(hown id).mpr rfl]
          exact iff_of_true rfl hc
        · exact hown c
  have hcount : between.subscribers.values.count s = 1 :=
    UnorderedMap.count_values_eq_one ((hentry id).mpr rfl) fun c hc => (hentry c).mp hc
  have hhanded : handedTo s (ch.join view s).2 =
      ch.historyRoom ++ [joinNotice (view s).login ch.channelId] := by
    rw [join, handedTo_append, handedTo_replay, if_pos rfl]
    show _ ++ handedTo s (between.subscribers.values.map _) = _
    rw [handedTo_map, hcount, List.replicate_one]
  refine ⟨_, heard, rfl, hentry, ?_, ?_, ?_⟩
  · rw [join_historyRoom]
    simp
  · rw [hhanded, join_historyRoom]
  · cases n with
    | zero => exact iff_of_true h.2 rfl
    | succ n =>
        -- what has been handed out before is there to stay
        obtain ⟨_, extra, ⟨⟩, -, hne, hheard, -⟩ := h
        refine iff_of_false ?_ (Nat.succ_ne_zero n)
        rw [hheard]
        simp [hne]

/-- What has been handed out is the history just when the room has been joined once. -/
theorem heard_eq_iff (h : Follows id s room n heard) (hpos : 0 < n) {α : Type}
    (f : TextSendData → α) :
    ∃ ch, room = some ch ∧ (heard.map f = ch.historyRoom.map f ↔ n = 1) := by
  cases n with
  | zero => exact absurd hpos (Nat.lt_irrefl 0)
  | succ n =>
      obtain ⟨ch, extra, hroom, -, -, rfl, hextra⟩ := h
      refine ⟨ch, hroom, ?_⟩
      rw [List.map_append, List.append_left_eq_self, List.map_eq_nil_iff, hextra]
      omega

end Follows

end Channel

/-! ## All rooms -/

namespace Connection

open Serialize

/-- A loaded history is that of the room. -/
def LoadsRoom (D : DatabaseOps) : Prop :=
  ∀ db roomId db' history, D.getHistory db roomId = (db', some history) →
    ∀ data ∈ history, data.roomId = roomId

/-- What is handed to `s`, in order. -/
def textsTo (s : ConnectionId) (out : List Output) : List TextSendData :=
  out.filterMap fun
    | .message d => if d.recipient = s then some d.data else none
    | _ => none

/-- The texts of the room `r`. -/
def roomTexts (r : Identifier) (texts : List TextSendData) : List TextSendData :=
  texts.filter (·.roomId = r)

/-- The join a handler makes. -/
def Event.joins : Event → List (ConnectionId × Identifier)
  | .handle s ⟨.doJoinRoom, .joinRoomRequest m⟩ => [(s, m.roomId)]
  | _ => []

/-- The connection and the client id in an answer to a log in or a registration. -/
def Output.account : Output → Option (ConnectionId × Identifier)
  | .autoResponse s clientId | .regResponse s clientId => some (s, clientId)
  | _ => none

/-- The connection whose client id an event looks at: one that joins or is freed. -/
def Event.actor : Event → Option ConnectionId
  | .handle s ⟨.doJoinRoom, .joinRoomRequest _⟩ => some s
  | e => e.frees

/-- The process, the joins it has made, and what each connection has been handed. -/
structure Audience (D : DatabaseOps) where
  server : Server D
  joins : List (ConnectionId × Identifier) := []
  heard : ConnectionId → List TextSendData := fun _ => []

namespace Audience

variable {D : DatabaseOps}

/-- After an event that makes the process `sv` and hands out `out`. -/
def after (a : Audience D) (e : Event) (sv : Server D) (out : List Output) : Audience D where
  server := sv
  joins := a.joins ++ e.joins
  heard s := a.heard s ++ textsTo s out

/-- A step of the server, after which the audience is brought up to date. -/
def Step (a : Audience D) (label : Event × List Output) (a' : Audience D) : Prop :=
  ∃ sv, Server.Step D a.server label sv ∧ a' = a.after label.1 sv label.2

/-- The channel of the room, if it has one. -/
def room (a : Audience D) (r : Identifier) : Option Channel :=
  a.server.chat.manager.channels.lookup r

/-- The connection has not been freed. -/
def Connected (a : Audience D) (s : ConnectionId) : Prop :=
  (a.server.connections s).socketOpen = true

end Audience

/-- Each client has an account of its own. -/
structure Accounts (clients : Set ConnectionId) (ids : ConnectionId → Identifier) : Prop where
  injOn : Set.InjOn ids clients
  ne_neg_one : ∀ s ∈ clients, ids s ≠ -1

/-- A client is logged in to its own account: every answer to a log in or a registration
gives it that account, and it joins and leaves with it.  After it has been freed its
client id may be -1. -/
structure OwnAccount {D : DatabaseOps} (clients : Set ConnectionId)
    (ids : ConnectionId → Identifier) (sv : Server D) (label : Event × List Output) : Prop where
  answer : ∀ o ∈ label.2, ∀ p ∈ o.account, p.1 ∈ clients ∧ p.2 = ids p.1
  actor : ∀ s ∈ label.1.actor,
    s ∈ clients ∧ ((sv.connections s).clientId = ids s ∨ (sv.connections s).socketOpen = false)

instance {D : DatabaseOps} (clients : Set ConnectionId) [DecidablePred (· ∈ clients)]
    (ids : ConnectionId → Identifier) (sv : Server D) (label : Event × List Output) :
    Decidable (OwnAccount clients ids sv label) :=
  decidable_of_iff
    ((∀ o ∈ label.2, ∀ p ∈ o.account, p.1 ∈ clients ∧ p.2 = ids p.1) ∧
      ∀ s ∈ label.1.actor, s ∈ clients ∧
        ((sv.connections s).clientId = ids s ∨ (sv.connections s).socketOpen = false))
    ⟨fun h => ⟨h.1, h.2⟩, fun h => ⟨h.answer, h.actor⟩⟩

/-- Every connection follows every room, under accounts that are told apart. -/
structure InTouch {D : DatabaseOps} (clients : Set ConnectionId)
    (ids : ConnectionId → Identifier) (a : Audience D) : Prop where
  consistent : a.server.Consistent
  freed : ∀ s ∈ clients, ¬ a.Connected s →
    (a.server.connections s).clientId = ids s ∨ (a.server.connections s).clientId = -1
  entries : ∀ r ch c s, a.room r = some ch → ch.subscribers.lookup c = some s →
    s ∈ clients ∧ (c = ids s ∨ c = -1)
  ofRoom : ∀ r ch, a.room r = some ch → ChatState.OfRoom r ch
  follows : ∀ s r, a.Connected s →
    Channel.Follows (ids s) s (a.room r) (a.joins.count (s, r)) (roomTexts r (a.heard s))

/-- A room is left alone, or a message is handed to all its entries and appended to its
history, and the entries under some keys are taken out. -/
inductive RoomSent (r : Identifier) (gone : Identifier → Prop) (room : Option Channel) :
    Option Channel → List Delivery → Prop where
  | quiet : RoomSent r gone room room []
  | notified {ch ch' : Channel} {data : TextSendData} :
      room = some ch → data.roomId = r → ch'.channelId = ch.channelId →
      ch'.historyRoom = ch.historyRoom ++ [data] →
      (∀ c s, ch'.subscribers.lookup c = some s ↔ ch.subscribers.lookup c = some s ∧ ¬ gone c) →
        RoomSent r gone room (some ch') (ch.subscribers.values.map fun sub => ⟨sub, data⟩)

namespace RoomSent

variable {r : Identifier} {gone : Identifier → Prop} {room room' : Option Channel}
  {handed : List Delivery}

/-- Every entry was there before. -/
theorem exists_lookup (h : RoomSent r gone room room' handed) {ch : Channel} {c : Identifier}
    {s : ConnectionId} (hch : room' = some ch) (hc : ch.subscribers.lookup c = some s) :
    ∃ old, room = some old ∧ old.subscribers.lookup c = some s := by
  cases h with
  | quiet => exact ⟨ch, hch, hc⟩
  | notified hroom _ _ _ hentry =>
      cases hch
      exact ⟨_, hroom, ((hentry c s).mp hc).1⟩

theorem ofRoom (h : RoomSent r gone room room' handed)
    (hold : ∀ ch, room = some ch → ChatState.OfRoom r ch) {ch : Channel} (hch : room' = some ch) :
    ChatState.OfRoom r ch := by
  cases h with
  | quiet => exact hold ch hch
  | @notified old _ data hroom hdata hid hhistory _ =>
      cases hch
      have hnotified := (hold old hroom).notification hdata
      refine ⟨hid.trans hnotified.channelId, ?_⟩
      rw [hhistory]
      exact hnotified.historyRoom

theorem follows (h : RoomSent r gone room room' handed) {id : Identifier} {s : ConnectionId} {n : Nat}
    {heard : List TextSendData} (hfollows : Channel.Follows id s room n heard)
    (hgone : ∀ ch c, room = some ch → ch.subscribers.lookup c = some s → ¬ gone c) :
    Channel.Follows id s room' n (heard ++ Channel.handedTo s handed) := by
  cases h with
  | quiet => simpa using hfollows
  | @notified ch _ data hroom _ _ hhistory hentry =>
      subst hroom
      refine hfollows.notified data ?_ hhistory
      intro c
      rw [hentry, and_iff_left_iff_imp]
      exact hgone ch c rfl

end RoomSent

/-! ### What is handed out -/

@[simp] theorem textsTo_append (s : ConnectionId) (out out' : List Output) :
    textsTo s (out ++ out') = textsTo s out ++ textsTo s out' :=
  List.filterMap_append ..

theorem textsTo_map_message (s : ConnectionId) (deliveries : List Delivery) :
    textsTo s (deliveries.map .message) = Channel.handedTo s deliveries := by
  induction deliveries with
  | nil => rfl
  | cons d deliveries ih =>
      have hone : textsTo s [.message d] = Channel.handedTo s [d] := by
        by_cases hd : d.recipient = s
        · simp [textsTo, Channel.handedTo, hd]
        · simp [textsTo, Channel.handedTo, hd]
      calc textsTo s ([.message d] ++ deliveries.map .message)
          = Channel.handedTo s [d] ++ Channel.handedTo s deliveries := by
            rw [textsTo_append, hone, ih]
        _ = Channel.handedTo s (d :: deliveries) := (Channel.handedTo_append s [d] deliveries).symm

@[simp] theorem roomTexts_append (r : Identifier) (texts texts' : List TextSendData) :
    roomTexts r (texts ++ texts') = roomTexts r texts ++ roomTexts r texts' :=
  List.filter_append ..

/-- What is handed to `s` of the room `r`. -/
theorem roomTexts_handedTo (s : ConnectionId) (r : Identifier) (deliveries : List Delivery) :
    roomTexts r (Channel.handedTo s deliveries) =
      Channel.handedTo s (deliveries.filter (ChatState.handedBy r)) := by
  simp only [roomTexts, Channel.handedTo, List.filter_map, List.filter_filter, ChatState.handedBy,
    Function.comp_def, Bool.and_comm]

/-! ### Steps -/

section Steps

variable {D : DatabaseOps} {clients : Set ConnectionId} {ids : ConnectionId → Identifier}
  {a : Audience D} {sv : Server D} {e : Event} {out : List Output}

namespace InTouch

/-- The account of a connection that acts. -/
theorem clientId_eq (h : InTouch clients ids a) (hown : OwnAccount clients ids a.server (e, out))
    {s : ConnectionId} (hactor : e.actor = some s) :
    s ∈ clients ∧
      ((a.server.connections s).clientId = ids s ∨ (a.server.connections s).clientId = -1) := by
  obtain ⟨hs, hid | hclosed⟩ := hown.actor s hactor
  · exact ⟨hs, Or.inl hid⟩
  · exact ⟨hs, h.freed s hs fun hopen => absurd (hopen.symm.trans hclosed) (by decide)⟩

/-- An event that is not a join: each room is left alone or sent one message. -/
theorem sent (h : InTouch clients ids a) {gone : Identifier → Prop} {deliveries : List Delivery}
    (hconsistent : sv.Consistent)
    (hopen : ∀ s, (sv.connections s).socketOpen = true → a.Connected s)
    (hfreed : ∀ s ∈ clients, (sv.connections s).socketOpen ≠ true →
      (sv.connections s).clientId = ids s ∨ (sv.connections s).clientId = -1)
    (hrooms : ∀ r, RoomSent r gone (a.room r) (sv.chat.manager.channels.lookup r)
      (deliveries.filter (ChatState.handedBy r)))
    (hgone : ∀ s r ch c, (sv.connections s).socketOpen = true → a.room r = some ch →
      ch.subscribers.lookup c = some s → ¬ gone c)
    (hout : ∀ s, textsTo s out = Channel.handedTo s deliveries) (hjoins : e.joins = []) :
    InTouch clients ids (a.after e sv out) where
  consistent := hconsistent
  freed := hfreed
  entries r ch c s hch hc := by
    obtain ⟨old, hold, hc⟩ := (hrooms r).exists_lookup hch hc
    exact h.entries r old c s hold hc
  ofRoom r _ hch := (hrooms r).ofRoom (h.ofRoom r) hch
  follows s r ho := by
    have hfollows := (hrooms r).follows (h.follows s r (hopen s ho)) (hgone s r · · ho)
    simp only [Audience.after, hjoins, hout, List.append_nil, roomTexts_append, roomTexts_handedTo]
    exact hfollows

/-- A log in, a registration, and an event that does nothing. -/
theorem quiet (h : InTouch clients ids a) (hmanager : sv.chat.manager = a.server.chat.manager)
    (hopen : ∀ s, (sv.connections s).socketOpen = (a.server.connections s).socketOpen)
    (hid : ∀ s, (sv.connections s).clientId = (a.server.connections s).clientId ∨
      (sv.connections s).clientId = ids s)
    (hout : ∀ s, textsTo s out = []) (hjoins : e.joins = []) :
    InTouch clients ids (a.after e sv out) := by
  have hrooms : ∀ r, RoomSent r (fun _ => False) (a.room r) (sv.chat.manager.channels.lookup r)
      (([] : List Delivery).filter (ChatState.handedBy r)) := by
    intro r
    rw [hmanager]
    exact .quiet
  refine h.sent ?_ (fun s ho => (hopen s).symm.trans ho) ?_ hrooms
    (fun _ _ _ _ _ _ _ hfalse => hfalse) hout hjoins
  · show sv.chat.manager.Consistent
    rw [hmanager]
    exact h.consistent
  · intro s hs hclosed
    rcases hid s with heq | heq
    · rw [heq]
      exact h.freed s hs fun ho => hclosed ((hopen s).trans ho)
    · exact Or.inl heq

/-- A connection is given its account. -/
theorem identity (h : InTouch clients ids a) {t : ConnectionId} {c : Members}
    (hmanager : sv.chat.manager = a.server.chat.manager)
    (hconnections : sv.connections = a.server.connections)
    (hopen : c.socketOpen = (a.server.connections t).socketOpen) (hid : c.clientId = ids t)
    (hout : ∀ s, textsTo s out = []) (hjoins : e.joins = []) :
    InTouch clients ids (a.after e (sv.setMembers t c) out) := by
  have hmembers : ∀ s, ((sv.setMembers t c).connections s).socketOpen =
        (a.server.connections s).socketOpen ∧
      (((sv.setMembers t c).connections s).clientId = (a.server.connections s).clientId ∨
        ((sv.setMembers t c).connections s).clientId = ids s) := by
    intro s
    rcases eq_or_ne s t with rfl | hne
    · rw [Server.setMembers_connections_self]
      exact ⟨hopen, Or.inr hid⟩
    · rw [Server.setMembers_connections_of_ne _ hne, hconnections]
      exact ⟨rfl, Or.inl rfl⟩
  exact h.quiet hmanager (fun s => (hmembers s).1) (fun s => (hmembers s).2) hout hjoins

/-- A text to a room. -/
theorem text (h : InTouch clients ids a) (msg : TextSendData) (hjoins : e.joins = []) :
    InTouch clients ids
      (a.after e { a.server with chat := (a.server.chat.text msg).1 }
        ((a.server.chat.text msg).2.map .message)) := by
  let sent := a.server.chat.manager.sendToChannel msg
  have hrooms : ∀ r, RoomSent r (fun _ => False) (a.room r) (sent.1.channels.lookup r)
      (sent.2.filter (ChatState.handedBy r)) := by
    intro r
    have hlookup : sent.1.channels.lookup r = _ := ChannelsManager.lookup_sendToChannel _ msg r
    cases hroom : a.room msg.roomId with
    | none =>
        have hsent : sent = (a.server.chat.manager, []) := by
          show ChannelsManager.sendToChannel _ msg = _
          have hroom' : a.server.chat.manager.channels.lookup msg.roomId = none := hroom
          rw [ChannelsManager.sendToChannel, hroom']
        rw [hsent]
        exact .quiet
    | some ch =>
        have hhanded : sent.2 = (ch.notification msg).2 := by
          show (ChannelsManager.sendToChannel _ msg).2 = _
          have hroom' : a.server.chat.manager.channels.lookup msg.roomId = some ch := hroom
          rw [ChannelsManager.sendToChannel, hroom']
        rw [hlookup, hhanded]
        rcases eq_or_ne r msg.roomId with rfl | hr
        · rw [if_pos rfl, show a.server.chat.manager.channels.lookup msg.roomId = some ch from hroom,
            ChatState.filter_handedBy_self (ChatState.OfRoom.handed_notification rfl)]
          exact .notified hroom rfl rfl rfl fun _ _ => by simp
        · rw [if_neg hr,
            ChatState.filter_handedBy_of_ne (ChatState.OfRoom.handed_notification rfl) hr.symm]
          exact .quiet
  refine h.sent (ChannelsManager.consistent_sendToChannel h.consistent msg) (fun _ ho => ho)
    h.freed hrooms (fun _ _ _ _ _ _ _ hfalse => hfalse) ?_ hjoins
  exact fun s => textsTo_map_message s sent.2

/-- A connection is freed. -/
theorem free (h : InTouch clients ids a) (hids : Accounts clients ids) {t : ConnectionId}
    (ht : t ∈ clients)
    (hid : (a.server.connections t).clientId = ids t ∨ (a.server.connections t).clientId = -1)
    (hjoins : e.joins = []) :
    InTouch clients ids
      (a.after e (a.server.freeConnection t).1 (a.server.freeConnection t).2) := by
  let c := (a.server.connections t).clientId
  let left := a.server.chat.manager.leaveFromAllChannels a.server.view c
  have hleft := ChannelsManager.leftAll_leaveFromAllChannels h.consistent a.server.view c
  have hrooms : ∀ r, RoomSent r (· = c) (a.room r) (left.1.channels.lookup r)
      (left.2.filter (ChatState.handedBy r)) := by
    intro r
    by_cases hsubscribed : a.server.chat.manager.Subscribed c r
    · obtain ⟨ch, hch, hmem⟩ := hsubscribed
      obtain ⟨u, hu⟩ := UnorderedMap.mem_iff_lookup.mp hmem
      obtain ⟨hlookup, hhanded⟩ := hleft.left r ch u hch hu
      rw [hlookup, hhanded]
      refine .notified hch rfl (h.ofRoom r ch hch).channelId.symm rfl ?_
      intro k s
      simp only [UnorderedMap.lookup_erase_eq]
      split
      · rename_i hk
        simp [hk]
      · rename_i hk
        simp [hk]
    · obtain ⟨hlookup, hhanded⟩ := hleft.others r hsubscribed
      rw [hlookup, hhanded]
      exact .quiet
  have hopen : ∀ s, ((a.server.freeConnection t).1.connections s).socketOpen = true →
      s ≠ t ∧ a.Connected s := by
    intro s ho
    rcases eq_or_ne s t with rfl | hne
    · rw [Server.freeConnection, Server.setMembers_connections_self] at ho
      cases ho
    · rw [Server.freeConnection, Server.setMembers_connections_of_ne _ hne] at ho
      exact ⟨hne, ho⟩
  refine h.sent (ChannelsManager.consistent_leaveFromAllChannels h.consistent _ _)
    (fun s ho => (hopen s ho).2) ?_ hrooms ?_ (fun s => textsTo_map_message s left.2) hjoins
  · intro s hs hclosed
    rcases eq_or_ne s t with rfl | hne
    · rw [Server.freeConnection, Server.setMembers_connections_self]
      exact Or.inr rfl
    · rw [Server.freeConnection, Server.setMembers_connections_of_ne _ hne] at hclosed ⊢
      exact h.freed s hs hclosed
  · -- the account of a connection that stays is not the one that leaves
    rintro s r ch k ho hch hk rfl
    obtain ⟨hne, hconnected⟩ := hopen s ho
    have hfollows := h.follows s r hconnected
    rw [hch] at hfollows
    have hown : c = ids s := hfollows.eq_of_lookup hk
    have hs := (h.entries r ch c s hch hk).1
    rcases hid with hid | hid
    · exact hne (hids.injOn hs ht (hown.symm.trans hid))
    · exact hids.ne_neg_one s hs (hown.symm.trans hid)

/-- A connection joins a room. -/
theorem join (h : InTouch clients ids a) (hids : Accounts clients ids) (hload : LoadsRoom D)
    {t : ConnectionId} (ht : t ∈ clients)
    (hid : (a.server.connections t).clientId = ids t ∨ (a.server.connections t).clientId = -1)
    (hconnected : a.Connected t → (a.server.connections t).clientId = ids t)
    {m : JoinRoomRequest} {result : JoinResult D}
    (hjoin : a.server.chat.manager.join a.server.view t m.roomId a.server.chat.db = some result) :
    InTouch clients ids
      (a.after (.handle t ⟨.doJoinRoom, .joinRoomRequest m⟩)
        ({ a.server with chat := ⟨result.manager, result.db⟩ }.setMembers t
          { a.server.connections t with busy := true, roomId := m.roomId })
        (result.deliveries.map .message ++ [.joinRoomResponse t m.roomId true])) := by
  obtain ⟨ch, hch, hlookup, -, -, -, hdeliveries⟩ := ChannelsManager.join_cases hjoin
  have hentered : a.room m.roomId = some ch ∨ (a.room m.roomId = none ∧ ch.subscribers = ∅) := by
    rcases hch with ⟨hsome, -⟩ | ⟨hnone, history, -, rfl⟩
    · exact Or.inl hsome
    · exact Or.inr ⟨hnone, rfl⟩
  have hof : ChatState.OfRoom m.roomId ch := by
    rcases hch with ⟨hsome, -⟩ | ⟨-, history, hloaded, rfl⟩
    · exact h.ofRoom _ _ hsome
    · exact ⟨rfl, hload _ _ _ _ hloaded⟩
  -- the other members stay
  let sv' : Server D := { a.server with chat := ⟨result.manager, result.db⟩ }.setMembers t
    { a.server.connections t with busy := true, roomId := m.roomId }
  have hmembers : ∀ s, (sv'.connections s).socketOpen = (a.server.connections s).socketOpen ∧
      (sv'.connections s).clientId = (a.server.connections s).clientId := by
    intro s
    rcases eq_or_ne s t with rfl | hne
    · rw [Server.setMembers_connections_self]
      exact ⟨rfl, rfl⟩
    · rw [Server.setMembers_connections_of_ne _ hne]
      exact ⟨rfl, rfl⟩
  -- an entry is an old one, or that of the joiner
  have hback : ∀ c s, (ch.join a.server.view t).1.subscribers.lookup c = some s →
      ch.subscribers.lookup c = some s ∨ (c = (a.server.connections t).clientId ∧ s = t) := by
    intro c s hc
    rw [Channel.join_subscribers, UnorderedMap.lookup_tryEmplace] at hc
    split at hc
    · rename_i hkey
      cases hold : ch.subscribers.lookup (a.server.view t).clientId with
      | none =>
          rw [hold] at hc
          exact Or.inr ⟨hkey, (Option.some.inj hc).symm⟩
      | some u =>
          rw [hold] at hc
          rw [hkey]
          exact Or.inl (hold.trans hc)
    · exact Or.inl hc
  have hentries : ∀ c s, ch.subscribers.lookup c = some s → s ∈ clients ∧ (c = ids s ∨ c = -1) := by
    intro c s hc
    rcases hentered with hsome | ⟨-, hempty⟩
    · exact h.entries _ ch c s hsome hc
    · rw [hempty] at hc
      simp at hc
  refine ⟨ChannelsManager.consistent_join hjoin h.consistent, ?_, ?_, ?_, ?_⟩
  · intro s hs hclosed
    have hold := h.freed s hs fun ho => hclosed ((hmembers s).1.trans ho)
    rw [← (hmembers s).2] at hold
    exact hold
  · intro r ch' c s hr hc
    have hr' := (hlookup r).symm.trans hr
    split at hr'
    · cases hr'
      rcases hback c s hc with hold | ⟨rfl, rfl⟩
      · exact hentries c s hold
      · exact ⟨ht, hid⟩
    · exact h.entries r ch' c s hr' hc
  · intro r ch' hr
    have hr' := (hlookup r).symm.trans hr
    split at hr'
    · rename_i heq
      cases hr'
      rw [heq]
      exact hof.join _ t
    · exact h.ofRoom r ch' hr'
  · intro s r ho
    have hopen : a.Connected s := (hmembers s).1.symm.trans ho
    have hfollows := h.follows s r hopen
    have htexts : textsTo s (result.deliveries.map .message ++ [.joinRoomResponse t m.roomId true]) =
        Channel.handedTo s (ch.join a.server.view t).2 := by
      rw [textsTo_append, textsTo_map_message, hdeliveries]
      exact List.append_nil _
    have hroom : ∀ out, (a.after (.handle t ⟨.doJoinRoom, .joinRoomRequest m⟩)
        ({ a.server with chat := ⟨result.manager, result.db⟩ }.setMembers t
          { a.server.connections t with busy := true, roomId := m.roomId }) out).room r =
        if r = m.roomId then some (ch.join a.server.view t).1 else a.room r := fun _ => hlookup r
    rw [hroom]
    simp only [Audience.after, Event.joins, htexts, List.count_append, roomTexts_append,
      roomTexts_handedTo, List.count_singleton, beq_iff_eq, Prod.mk.injEq]
    rcases eq_or_ne r m.roomId with rfl | hr
    · rw [ChatState.filter_handedBy_self (hof.handed_join _ t), if_pos rfl]
      have hfollows' := hfollows.enter hentered
      rcases eq_or_ne s t with rfl | hne
      · rw [if_pos ⟨rfl, rfl⟩]
        refine hfollows'.join_self _ (hconnected hopen) ?_
        -- nobody else has its account
        intro hzero
        rw [hzero] at hfollows'
        refine Option.eq_none_iff_forall_ne_some.mpr fun u hu => ?_
        obtain ⟨hu', heq | heq⟩ := hentries _ u hu
        · rw [hids.injOn ht hu' heq] at hfollows'
          exact hfollows'.1 ch _ rfl hu
        · exact hids.ne_neg_one s ht heq
      · rw [if_neg fun heq => hne heq.1.symm, Nat.add_zero]
        exact hfollows'.join_other _ hne
    · rw [ChatState.filter_handedBy_of_ne (hof.handed_join _ t) hr.symm, if_neg hr,
        if_neg fun heq => hr heq.2.symm, Nat.add_zero, Channel.handedTo_nil, List.append_nil]
      exact hfollows

end InTouch

/-- Every step keeps the clients in touch. -/
theorem inTouch_step {a' : Audience D} {label : Event × List Output} (hids : Accounts clients ids)
    (hload : LoadsRoom D) (hstep : a.Step label a') (h : InTouch clients ids a)
    (hown : OwnAccount clients ids a.server label) : InTouch clients ids a' := by
  obtain ⟨e, out⟩ := label
  obtain ⟨sv, hone, rfl⟩ := hstep
  cases Server.effect_of_step hone with
  | login hcheck =>
      have hid := (hown.answer _ (List.mem_singleton.mpr rfl) _ rfl).2
      exact h.identity rfl rfl rfl hid (fun _ => rfl) rfl
  | register hfree hadd =>
      have hid := (hown.answer _ (List.mem_singleton.mpr rfl) _ rfl).2
      exact h.identity rfl rfl rfl hid (fun _ => rfl) rfl
  | refuse htaken =>
      have hid := (hown.answer _ (List.mem_singleton.mpr rfl) _ rfl).2
      exact h.identity rfl rfl rfl hid (fun _ => rfl) rfl
  | join hjoin =>
      obtain ⟨ht, hid⟩ := h.clientId_eq hown rfl
      refine h.join hids hload ht hid ?_ hjoin
      intro ho
      rcases (hown.actor _ rfl).2 with heq | hclosed
      · exact heq
      · exact absurd (ho.symm.trans hclosed) (by decide)
  | text => exact h.text _ rfl
  | free hfrees =>
      have hactor : e.actor = e.frees := by
        obtain ⟨s, ⟨handler, r⟩⟩ | s := e
        · cases handler <;> cases r <;> first | rfl | cases hfrees
        · rfl
      have hjoins : e.joins = [] := by
        obtain ⟨s, ⟨handler, r⟩⟩ | s := e
        · cases handler <;> cases r <;> first | rfl | cases hfrees
        · rfl
      obtain ⟨ht, hid⟩ := h.clientId_eq hown (hactor.trans hfrees)
      exact h.free hids ht hid hjoins
  | ignore hignored =>
      have hjoins : e.joins = [] := by
        obtain ⟨s, ⟨handler, r⟩⟩ | s := e
        · cases handler <;> cases r <;> first | rfl | cases hignored
        · rfl
      exact h.quiet rfl (fun _ => rfl) (fun _ => Or.inl rfl) (fun _ => rfl) hjoins

end Steps

/-- A new process. -/
def Audience.start {D : DatabaseOps} (db : D.State) (clientIds : ConnectionId → Identifier) :
    Audience D where
  server := Server.init db clientIds

theorem inTouch_start {D : DatabaseOps} (clients : Set ConnectionId)
    (ids : ConnectionId → Identifier) (db : D.State) (clientIds : ConnectionId → Identifier) :
    InTouch clients ids (Audience.start db clientIds) where
  consistent := ChannelsManager.represents_init.consistent
  freed _ _ hclosed := absurd rfl hclosed
  entries _ _ _ _ hch := nomatch hch
  ofRoom _ _ hch := nomatch hch
  follows s r _ := by
    refine ⟨?_, rfl⟩
    rintro ch c ⟨⟩

end Connection

end AppChat
