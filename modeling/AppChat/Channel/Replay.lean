/-
  `Channel.Replay`: what a subscriber of a channel has heard.

  A joiner is handed the history, then subscribed, and from then on handed every
  message before it is appended to the history.  What a subscriber has been
  handed since its last join is therefore the history itself, whoever else joins
  or leaves in between.
-/
import AppChat.Channel.Channel
import AppChat.Foundation.Transition

set_option autoImplicit false

namespace AppChat

open Foundation Storage

/-! ## Calls of a channel -/

/-- A call of a channel. -/
inductive ChannelCall where
  | join (sub : ConnectionId)
  | leaveSubscriber (sub : ConnectionId)
  | leave (clientId : Identifier)
  | notification (data : TextSendData)
  deriving DecidableEq, Repr

/-- The subscriber whose join starts with the call. -/
def ChannelCall.joiner : ChannelCall → Option ConnectionId
  | .join sub => some sub
  | _ => none

namespace Channel

/-- The channel after a call, and the deliveries it makes. -/
def call (view : View) (ch : Channel) : ChannelCall → Channel × List Delivery
  | .join sub => ch.join view sub
  | .leaveSubscriber sub => ch.leaveSubscriber view sub
  | .leave clientId => ch.leave view clientId
  | .notification data => ch.notification data

/-- What the deliveries hand to `s`, in order. -/
def handedTo (s : ConnectionId) (deliveries : List Delivery) : List TextSendData :=
  (deliveries.filter (·.recipient = s)).map (·.data)

@[simp] theorem handedTo_nil (s : ConnectionId) : handedTo s [] = [] := rfl

@[simp] theorem handedTo_append (s : ConnectionId) (a b : List Delivery) :
    handedTo s (a ++ b) = handedTo s a ++ handedTo s b := by
  simp [handedTo]

/-- A replay hands everything to the joiner and nothing to anybody else. -/
theorem handedTo_replay (s t : ConnectionId) (history : List TextSendData) :
    handedTo s (history.map fun data => (⟨t, data⟩ : Delivery)) =
      if s = t then history else [] := by
  induction history with
  | nil => simp
  | cons data history ih =>
      rw [List.map_cons, ← List.singleton_append, handedTo_append, ih]
      split
      · rename_i h
        subst h
        simp [handedTo]
      · rename_i h
        simp [handedTo, Ne.symm h]

/-- A message goes to every entry of the map. -/
theorem handedTo_map (s : ConnectionId) (subs : List ConnectionId) (data : TextSendData) :
    handedTo s (subs.map fun sub => (⟨sub, data⟩ : Delivery)) =
      List.replicate (subs.count s) data := by
  induction subs with
  | nil => rfl
  | cons sub subs ih =>
      rw [List.map_cons, ← List.singleton_append, handedTo_append, ih, List.count_cons]
      split
      · rename_i h
        rw [beq_iff_eq] at h
        simp [handedTo, h, List.replicate_succ]
      · rename_i h
        rw [beq_iff_eq] at h
        simp [handedTo, h]

/-! ## What the subscribers have heard -/

/-- What each object has been handed since the start of its last join. -/
abbrev Heard := ConnectionId → List TextSendData

/-- A join starts the joiner's list anew. -/
def Heard.record (heard : Heard) (c : ChannelCall) (deliveries : List Delivery) : Heard :=
  fun s => (if c.joiner = some s then [] else heard s) ++ handedTo s deliveries

/-- One call, with the lists kept along.  The objects keep their client ids; their
logins are those of the moment. -/
def HeardStep (ids : ConnectionId → Identifier) (st : Channel × Heard)
    (label : ChannelCall × (ConnectionId → Bytes)) (st' : Channel × Heard) : Prop :=
  let result := st.1.call (fun s => ⟨ids s, label.2 s⟩) label.1
  st' = (result.1, st.2.record label.1 result.2)

/-- Every entry is under the id of its subscriber, which has heard the history. -/
def InTune (ids : ConnectionId → Identifier) (st : Channel × Heard) : Prop :=
  ∀ c s, st.1.subscribers.lookup c = some s → c = ids s ∧ st.2 s = st.1.historyRoom

section InTune

variable {ids : ConnectionId → Identifier} {ch : Channel} {heard : Heard}

/-- A message reaches every subscriber once. -/
theorem InTune.handedTo_values (h : InTune ids (ch, heard)) {c : Identifier} {s : ConnectionId}
    (hs : ch.subscribers.lookup c = some s) (data : TextSendData) :
    handedTo s (ch.subscribers.values.map fun sub => (⟨sub, data⟩ : Delivery)) = [data] := by
  have honce : ch.subscribers.values.count s = 1 := by
    refine UnorderedMap.count_values_eq_one hs ?_
    intro c' hc'
    rw [(h c' s hc').1, (h c s hs).1]
  rw [handedTo_map, honce, List.replicate_one]

theorem inTune_notification (h : InTune ids (ch, heard)) (c : ChannelCall)
    (hc : c.joiner = none) (data : TextSendData) :
    InTune ids ((ch.notification data).1, heard.record c (ch.notification data).2) := by
  intro k s hs
  have hdata := h.handedTo_values hs data
  obtain ⟨hk, hheard⟩ : k = ids s ∧ heard s = ch.historyRoom := h k s hs
  refine ⟨hk, ?_⟩
  simp only [Heard.record, hc, reduceCtorEq, if_false]
  rw [hheard, notification, hdata]

/-- Taking an entry out disturbs nobody else. -/
theorem InTune.erase (h : InTune ids (ch, heard)) (c : Identifier) :
    InTune ids ({ ch with subscribers := ch.subscribers.erase c }, heard) := by
  intro k s hs
  simp only [UnorderedMap.lookup_erase_eq] at hs
  split at hs
  · cases hs
  · exact h k s hs

theorem inTune_leave (h : InTune ids (ch, heard)) (logins : ConnectionId → Bytes)
    (c : Identifier) :
    InTune ids ((ch.leave (fun s => ⟨ids s, logins s⟩) c).1,
      heard.record (.leave c) (ch.leave (fun s => ⟨ids s, logins s⟩) c).2) := by
  cases hsub : ch.subscribers.lookup c with
  | none =>
      rw [leave_of_notMem _ (AList.lookup_eq_none.mp hsub)]
      intro k s hs
      simpa [Heard.record, ChannelCall.joiner] using h k s hs
  | some sub =>
      have hnotified := inTune_notification h (.leave c) rfl (leaveNotice (logins sub) ch.channelId)
      rw [leave_of_lookup _ hsub]
      exact hnotified.erase c

/-- The joiner hears the history again, and then the notice if the entry under its
id is its own. -/
theorem inTune_join (h : InTune ids (ch, heard)) (logins : ConnectionId → Bytes)
    (t : ConnectionId) :
    InTune ids ((ch.join (fun s => ⟨ids s, logins s⟩) t).1,
      heard.record (.join t) (ch.join (fun s => ⟨ids s, logins s⟩) t).2) := by
  -- between the replay and the notice
  let between : Channel := { ch with subscribers := ch.subscribers.tryEmplace (ids t) t }
  let replayed : Heard := fun s => if s = t then ch.historyRoom else heard s
  have hbetween : InTune ids (between, replayed) := by
    intro k s hs
    have hs' : (ch.subscribers.tryEmplace (ids t) t).lookup k = some s := hs
    rw [UnorderedMap.lookup_tryEmplace] at hs'
    by_cases hst : s = t
    · subst hst
      refine ⟨?_, by simp [replayed, between]⟩
      split at hs'
      · assumption
      · exact (h k s hs').1
    · have hold : ch.subscribers.lookup k = some s := by
        split at hs'
        · rename_i hk
          cases hl : ch.subscribers.lookup (ids t) with
          | none =>
              rw [hl] at hs'
              exact absurd (Option.some.inj hs').symm hst
          | some u =>
              rw [hl] at hs'
              rw [hk, hl]
              exact hs'
        · exact hs'
      obtain ⟨hk, hheard⟩ := h k s hold
      exact ⟨hk, by simpa [replayed, hst, between] using hheard⟩
  intro k s hs
  obtain ⟨hk, hheard⟩ :=
    inTune_notification hbetween (.notification (joinNotice (logins t) ch.channelId)) rfl
      (joinNotice (logins t) ch.channelId) k s hs
  refine ⟨hk, Eq.trans ?_ hheard⟩
  simp only [Heard.record, join, handedTo_append, handedTo_replay, ChannelCall.joiner,
    Option.some.injEq, reduceCtorEq, if_false, replayed, ← List.append_assoc]
  congr 1
  by_cases hst : s = t
  · simp [hst]
  · simp [hst, Ne.symm hst]

end InTune

/-- One call keeps the subscribers in tune. -/
theorem inTune_step {ids : ConnectionId → Identifier} {st st' : Channel × Heard}
    {label : ChannelCall × (ConnectionId → Bytes)} (h : HeardStep ids st label st')
    (hst : InTune ids st) : InTune ids st' := by
  obtain ⟨ch, heard⟩ := st
  obtain ⟨c, logins⟩ := label
  subst h
  cases c with
  | join sub => exact inTune_join hst logins sub
  | leaveSubscriber sub => exact inTune_notification (hst.erase (ids sub)) (.leaveSubscriber sub) rfl _
  | leave clientId => exact inTune_leave hst logins clientId
  | notification data => exact inTune_notification hst (.notification data) rfl data

/-- **Replay and live delivery.**  However a channel is used from its construction
on, each of its subscribers has been handed, since the start of its last join,
exactly the history. -/
theorem heard_eq_historyRoom {ids : ConnectionId → Identifier} {roomId : Identifier}
    {history : List TextSendData} {labels : List (ChannelCall × (ConnectionId → Bytes))}
    {ch : Channel} {heard : Heard}
    (h : Run (HeardStep ids) (⟨roomId, ∅, history⟩, fun _ => []) labels (ch, heard))
    {c : Identifier} {s : ConnectionId} (hs : ch.subscribers.lookup c = some s) :
    heard s = ch.historyRoom := by
  have hinit : InTune ids (⟨roomId, ∅, history⟩, fun _ => []) := by
    intro k t hk
    simp at hk
  have hend : InTune ids (ch, heard) := h.invariant (fun _ _ _ => inTune_step) hinit
  exact (hend c s hs).2

/-- Two objects share an id; the one that holds the entry has heard everything, the
notice of the other included. -/
theorem heard_eq_historyRoom_shared :
    let logins : ConnectionId → Bytes := fun _ => ascii "u"
    let history : List TextSendData := [⟨5, ascii "v", ascii "hi"⟩]
    ∃ (ch : Channel) (heard : Heard),
      Run (HeardStep fun _ => 7) (⟨5, ∅, history⟩, fun _ => [])
        [(.join 1, logins), (.join 2, logins)] (ch, heard) ∧
      ch.historyRoom = history ++ [joinNotice (ascii "u") 5, joinNotice (ascii "u") 5] ∧
      heard 1 = ch.historyRoom := by
  intro logins history
  let start : Channel × Heard := (⟨5, ∅, history⟩, fun _ => [])
  let view : View := fun s => ⟨7, logins s⟩
  let first := start.1.join view 1
  let second := first.1.join view 2
  have hrun : Run (HeardStep fun _ => 7) start [(.join 1, logins), (.join 2, logins)]
      (second.1, (start.2.record (.join 1) first.2).record (.join 2) second.2) :=
    .cons rfl (.single rfl)
  have hlookup : second.1.subscribers.lookup 7 = some 1 := by decide
  exact ⟨_, _, hrun, rfl, heard_eq_historyRoom hrun hlookup⟩

end Channel

end AppChat
