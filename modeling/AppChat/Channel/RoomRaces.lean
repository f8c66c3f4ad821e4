/-
  `Channel.RoomRaces`: which interleavings lose a text?

  A join looks for the channel and inserts it later, it loads the history and
  inserts it later, and it replays the history and subscribes later; a text is
  delivered and appended later, and one that finds no channel is saved later.  This
  file says in which of these windows nothing may happen, and that outside of them
  every joiner is handed every text once.
-/
import AppChat.Channel.RoomThreads

set_option autoImplicit false

namespace AppChat

open Foundation Storage

variable {D : DatabaseOps}

/-! ## What a handler has done -/

/-- The notice of a join. -/
def IsNotice (view : View) (r : Identifier) (data : TextSendData) : Prop :=
  ∃ s, data = Channel.joinNotice (view s).login r

/-- The job of a handler; whether it has found or inserted the channel; the texts it
has replayed; whether it has subscribed; whether its text has been delivered or,
without a channel, saved; the text it has delivered and not yet appended; and
whether it has answered. -/
structure RoomRecord where
  job : RoomJob
  found : Bool := false
  seen : Option (List TextSendData) := none
  subscribed : Bool := false
  sent : Bool := false
  underway : List TextSendData := []
  answered : Bool := false
  deriving DecidableEq, Repr

namespace RoomRecord

/-- A thread notes what an action has returned, and what it has done so far. -/
def note (σ : RoomShared D) (record : RoomRecord) : (a : RoomAct) → a.Res → RoomRecord
  | .find, found => { record with found := found }
  | .insert _, inserted => { record with found := inserted }
  | .replay _, _ => { record with seen := some σ.texts }
  | .subscribe _, _ => { record with subscribed := true }
  | .deliver data true, _ => { record with sent := true, underway := [data] }
  | .append _ true, _ => { record with underway := [] }
  | .save _, _ => { record with sent := true }
  | .answer _ _, _ => { record with answered := true }
  | _, _ => record

/-- The text of the handler that nobody has yet been handed or will load. -/
def pending (r : Identifier) (record : RoomRecord) : List TextSendData :=
  if record.sent then [] else record.job.data r

/-- The order of the actions of a handler: which of them it may be about to do. -/
def requires (view : View) (r : Identifier) (record : RoomRecord) : RoomAct → Prop
  | .find => record.found = false ∧ record.seen = none ∧ record.subscribed = false
  | .insert _ => record.seen = none ∧ record.subscribed = false
  | .replay s =>
      record.job = .join s ∧ record.found = true ∧ record.seen = none ∧ record.subscribed = false
  | .subscribe s => record.job = .join s ∧ record.found = true ∧ record.subscribed = false
  | .deliver data true => record.job.data r = [data] ∧ record.sent = false ∧ record.underway = []
  | .append data true => record.underway = [data]
  | .deliver data false | .append data false => IsNotice view r data
  | .save data => record.job.data r = [data] ∧ record.sent = record.found
  | .answer s flag => record.job = .join s ∧ flag = true ∧ record.subscribed = true
  | _ => True

end RoomRecord

/-- The threads of the room `r`. -/
def roomThreads (D : DatabaseOps) (view : View) (r : Identifier) :
    Machine (RoomShared D) RoomJob RoomRecord RoomAct RoomAct.Res where
  program := RoomJob.program view r
  exec := RoomShared.exec view r
  start job := { job := job }
  note := RoomRecord.note

/-- A thread of a join or of a text. -/
abbrev RoomThread := Thread RoomJob RoomRecord RoomAct RoomAct.Res

/-- The pool of the threads that work on one room. -/
abbrev RoomPool (D : DatabaseOps) := Pool (RoomShared D) RoomJob RoomRecord RoomAct RoomAct.Res

/-- The insertion of a channel succeeds. -/
def roomPromise (D : DatabaseOps) (view : View) (r : Identifier) :
    Machine.Promise (RoomShared D) RoomRecord RoomAct RoomAct.Res where
  requires := RoomRecord.requires view r
  returns _ _ a result :=
    match a, result with
    | .insert _, inserted => inserted = true
    | _, _ => True

/-- A finished join has answered and subscribed; a finished text has been
sent and is not underway. -/
def RoomJob.Done (job : RoomJob) (record : RoomRecord) : Prop :=
  record.job = job ∧ record.underway = [] ∧
    match job with
    | .join _ => record.answered = true ∧ record.subscribed = true
    | .text _ _ => record.sent = true

section Programs

variable {view : View} {r : Identifier}

theorem wp_enter (s : ConnectionId) :
    (roomThreads D view r).wp (roomPromise D view r) (RoomJob.Done (.join s))
      (RoomProgram.enter view r s) { job := .join s, found := true } := by
  have hnotice : IsNotice view r (Channel.joinNotice (view s).login r) := ⟨s, rfl⟩
  simp [hnotice, RoomProgram.enter, RoomProgram.notification, Program.perform, Machine.wp, roomThreads,
    roomPromise, RoomRecord.requires, RoomRecord.note, RoomJob.Done]

theorem wp_join (s : ConnectionId) :
    (roomThreads D view r).wp (roomPromise D view r) (RoomJob.Done (.join s))
      (RoomProgram.join view r s) { job := .join s } := by
  refine ⟨trivial, fun _ _ _ => ⟨⟨rfl, rfl, rfl⟩, ?_⟩⟩
  rintro _ found -
  cases found with
  | true => exact wp_enter s
  | false =>
      refine ⟨trivial, fun _ history _ => ⟨⟨rfl, rfl⟩, ?_⟩⟩
      rintro _ inserted rfl
      exact wp_enter s

theorem wp_text (login body : Bytes) :
    (roomThreads D view r).wp (roomPromise D view r) (RoomJob.Done (.text login body))
      (RoomProgram.text ⟨r, login, body⟩) { job := .text login body } := by
  refine ⟨⟨rfl, rfl, rfl⟩, ?_⟩
  rintro _ found -
  cases found <;>
    simp [RoomProgram.notification, Program.perform, Program.bind, Machine.wp, roomThreads,
      roomPromise, RoomRecord.requires, RoomRecord.note, RoomJob.data, RoomJob.Done]

theorem wp_roomProgram (job : RoomJob) :
    (roomThreads D view r).wp (roomPromise D view r) job.Done (job.program view r) { job := job } := by
  cases job with
  | join s => exact wp_join s
  | text login body => exact wp_text login body

end Programs

/-! ## The condition -/

/-- Loading the history changes nothing.  A channel is inserted while there is none,
with the history that is stored.  A joiner subscribes while no text is underway and
with the texts it has replayed.  A text that found no channel is saved while there is
none, and is then the last of the stored history. -/
def RoomGuard (r : Identifier) (σ : RoomShared D) (record : RoomRecord) : RoomAct → Prop
  | .load => (D.getHistory σ.chat.db r).1 = σ.chat.db
  | .insert history => σ.channel r = none ∧ σ.stored r = some history
  | .subscribe _ => σ.underway = [] ∧ record.seen = some σ.texts
  | .save data => record.found = false → σ.channel r = none ∧
      (σ.setDb (D.saveTextMsg σ.chat.db data)).stored r = (σ.stored r).map (· ++ [data])
  | _ => True

instance [DecidableEq D.State] (r : Identifier) (σ : RoomShared D) (record : RoomRecord)
    (a : RoomAct) : Decidable (RoomGuard r σ record a) :=
  match a with
  | .load => inferInstanceAs (Decidable ((D.getHistory σ.chat.db r).1 = σ.chat.db))
  | .insert history =>
      inferInstanceAs (Decidable (σ.channel r = none ∧ σ.stored r = some history))
  | .subscribe _ => inferInstanceAs (Decidable (σ.underway = [] ∧ record.seen = some σ.texts))
  | .save data =>
      inferInstanceAs (Decidable (record.found = false → σ.channel r = none ∧
        (σ.setDb (D.saveTextMsg σ.chat.db data)).stored r = (σ.stored r).map (· ++ [data])))
  | .recordRoom _ | .find | .replay _ | .deliver _ _ | .append _ _ | .recordLogin _
  | .answer _ _ => inferInstanceAs (Decidable True)

theorem returns_of_roomGuard {view : View} {r : Identifier} {σ σ' : RoomShared D}
    {record : RoomRecord} {a : RoomAct} {result : a.Res} (hguard : RoomGuard r σ record a)
    (h : σ.exec view r a = some (σ', result)) : (roomPromise D view r).returns σ record a result := by
  cases a with
  | insert history =>
      have hnone : σ.chat.manager.channels.lookup r = none := hguard.1
      simp only [RoomShared.exec, UnorderedMap.emplace_of_lookup_none hnone, Option.some.injEq,
        Prod.mk.injEq] at h
      exact h.2.symm
  | _ => trivial

/-! ## The invariant -/

/-- What holds of the handler of a joiner: it is handed nothing before the replay and
what it has replayed before the subscription; then it has its entry, and has been
handed every text delivered so far. -/
def JoinerInv (view : View) (r : Identifier) (σ : RoomShared D) (record : RoomRecord)
    (s : ConnectionId) : Prop :=
  if record.subscribed then
    ∃ ch, σ.channel r = some ch ∧ ch.subscribers.lookup (view s).clientId = some s ∧
      (∀ k, ch.subscribers.lookup k = some s → k = (view s).clientId) ∧
      (Channel.handedTo s σ.handedTexts).Perm (σ.texts ++ σ.underway)
  else
    Channel.handedTo s σ.handedTexts = record.seen.getD [] ∧
    ∀ ch, σ.channel r = some ch →
      (view s).clientId ∉ ch.subscribers ∧ ∀ k, ch.subscribers.lookup k ≠ some s

section JoinerInv

variable {view : View} {r : Identifier} {σ : RoomShared D} {record : RoomRecord}
  {s : ConnectionId}

theorem joinerInv_subscribed (h : record.subscribed = true) :
    JoinerInv view r σ record s ↔
      ∃ ch, σ.channel r = some ch ∧ ch.subscribers.lookup (view s).clientId = some s ∧
        (∀ k, ch.subscribers.lookup k = some s → k = (view s).clientId) ∧
        (Channel.handedTo s σ.handedTexts).Perm (σ.texts ++ σ.underway) := by
  rw [JoinerInv, if_pos h]

theorem joinerInv_waiting (h : record.subscribed = false) :
    JoinerInv view r σ record s ↔
      Channel.handedTo s σ.handedTexts = record.seen.getD [] ∧
        ∀ ch, σ.channel r = some ch →
          (view s).clientId ∉ ch.subscribers ∧ ∀ k, ch.subscribers.lookup k ≠ some s := by
  rw [JoinerInv, if_neg (by simp [h])]

end JoinerInv

/-- The texts of the handlers that nobody has been handed or will load. -/
def pendingTexts (r : Identifier) (threads : List RoomThread) : List TextSendData :=
  threads.flatMap fun thread => thread.record.pending r

/-- `all` are the texts that the room had at the start and those of the handlers. -/
structure RoomInv (view : View) (r : Identifier) (all : List TextSendData) (p : RoomPool D) :
    Prop where
  absent : p.shared.channel r = none → p.shared.underway = [] ∧
    ∀ history, p.shared.stored r = some history →
      (history ++ pendingTexts r p.threads).Perm all
  present : p.shared.channel r ≠ none →
    (p.shared.texts ++ p.shared.underway ++ pendingTexts r p.threads).Perm
      all
  underway : p.shared.underway.Perm (p.threads.flatMap fun thread => thread.record.underway)
  found : ∀ thread ∈ p.threads, thread.record.found = true → p.shared.channel r ≠ none
  joiner : ∀ thread ∈ p.threads, ∀ s, thread.record.job = .join s →
    JoinerInv view r p.shared thread.record s

/-- The joiners have different client ids. -/
def DistinctJoiners (view : View) (jobs : List RoomJob) : Prop :=
  ((jobs.filterMap RoomJob.joiner).map fun s => (view s).clientId).Nodup

instance (view : View) (jobs : List RoomJob) : Decidable (DistinctJoiners view jobs) :=
  inferInstanceAs (Decidable (List.Nodup _))

/-- The jobs of the threads. -/
def jobs (threads : List RoomThread) : List RoomJob := threads.map (·.record.job)

@[simp] theorem note_job (σ : RoomShared D) (record : RoomRecord) (a : RoomAct) (result : a.Res) :
    (record.note σ a result).job = record.job := by
  cases a with
  | deliver data isText => cases isText <;> rfl
  | append data isText => cases isText <;> rfl
  | _ => rfl

section Split

variable {view : View} {r : Identifier} {before after : List RoomThread} {x x' : RoomThread}

theorem pendingTexts_split :
    pendingTexts r (before ++ x :: after) =
      pendingTexts r before ++ (x.record.pending r ++ pendingTexts r after) := by
  simp [pendingTexts]

theorem pendingTexts_congr (hpending : x'.record.pending r = x.record.pending r) :
    pendingTexts r (before ++ x' :: after) = pendingTexts r (before ++ x :: after) := by
  simp [pendingTexts_split, hpending]

theorem flatMap_underway_congr (hunderway : x'.record.underway = x.record.underway) :
    (before ++ x' :: after).flatMap (fun thread => thread.record.underway) =
      (before ++ x :: after).flatMap fun thread => thread.record.underway := by
  simp [hunderway]

theorem DistinctJoiners.ne (h : DistinctJoiners view (jobs (before ++ x :: after))) {s : ConnectionId}
    (hs : x.record.job = .join s) {thread : RoomThread} (hthread : thread ∈ before ++ after)
    {t : ConnectionId} (ht : thread.record.job = .join t) :
    (view t).clientId ≠ (view s).clientId := by
  have hjoiner : x.record.job.joiner = some s := by rw [hs]; rfl
  rw [DistinctJoiners, jobs, List.map_append, List.map_cons, List.filterMap_append,
    List.filterMap_cons, hjoiner, List.map_append, List.map_cons, List.nodup_middle,
    ← List.map_append, ← List.filterMap_append, ← List.map_append, List.nodup_cons] at h
  intro heq
  refine h.1 (List.mem_map.mpr ⟨t, List.mem_filterMap.mpr ⟨.join t, ?_, rfl⟩, heq⟩)
  exact List.mem_map.mpr ⟨thread, hthread, ht⟩

/-- A property of the threads after a step: of the one that moved, and of the
others. -/
theorem forall_split {P : RoomThread → Prop} (hactor : P x')
    (hothers : ∀ thread ∈ before ++ after, P thread) :
    ∀ thread ∈ before ++ x' :: after, P thread := by
  intro thread hthread
  rcases List.mem_append.mp hthread with hbefore | hrest
  · exact hothers thread (List.mem_append_left _ hbefore)
  · rcases List.mem_cons.mp hrest with rfl | hafter
    · exact hactor
    · exact hothers thread (List.mem_append_right _ hafter)

theorem mem_of_mem_others {thread : RoomThread} (hthread : thread ∈ before ++ after) :
    thread ∈ before ++ x :: after := by
  rcases List.mem_append.mp hthread with hbefore | hafter
  · exact List.mem_append_left _ hbefore
  · exact List.mem_append_right _ (List.mem_cons_of_mem _ hafter)

end Split

/-! ## What an action preserves -/

section Step

variable {view : View} {r : Identifier} {σ σ' : RoomShared D}

/-- The entries of the room, the texts and what has been handed are all that matters
to a joiner. -/
theorem JoinerInv.congr {record record' : RoomRecord} {s : ConnectionId}
    (h : JoinerInv view r σ record s)
    (hsubscribers : ∀ ch', σ'.channel r = some ch' →
      ∃ ch, σ.channel r = some ch ∧ ch'.subscribers = ch.subscribers)
    (hroom : σ.channel r ≠ none → σ'.channel r ≠ none)
    (hhanded : Channel.handedTo s σ'.handedTexts = Channel.handedTo s σ.handedTexts)
    (htexts : (σ.texts ++ σ.underway).Perm (σ'.texts ++ σ'.underway))
    (hseen : record'.seen = record.seen) (hsubscribed : record'.subscribed = record.subscribed) :
    JoinerInv view r σ' record' s := by
  cases hsub : record.subscribed with
  | true =>
      obtain ⟨ch, hch, hown, honly, hperm⟩ := (joinerInv_subscribed hsub).mp h
      obtain ⟨ch', hch'⟩ := Option.ne_none_iff_exists'.mp (hroom (by simp [hch]))
      obtain ⟨ch₀, hch₀, hsame⟩ := hsubscribers ch' hch'
      have heq : ch₀ = ch := Option.some.inj (hch₀.symm.trans hch)
      subst heq
      rw [← hsame] at hown honly
      rw [← hhanded] at hperm
      exact (joinerInv_subscribed (hsubscribed.trans hsub)).mpr
        ⟨ch', hch', hown, honly, hperm.trans htexts⟩
  | false =>
      obtain ⟨hseenBy, hnone⟩ := (joinerInv_waiting hsub).mp h
      refine (joinerInv_waiting (hsubscribed.trans hsub)).mpr ⟨?_, ?_⟩
      · rw [hhanded, hseen]
        exact hseenBy
      · intro ch' hch'
        obtain ⟨ch, hch, hsame⟩ := hsubscribers ch' hch'
        rw [hsame]
        exact hnone ch hch

variable {all : List TextSendData} {before after : List RoomThread} {x x' : RoomThread}

/-- What the step of one thread has to preserve: the counts, and each joiner. -/
theorem RoomInv.step (h : RoomInv view r all ⟨σ, before ++ x :: after⟩)
    (hjob : x'.record.job = x.record.job)
    (habsent : σ'.channel r = none → σ'.underway = [] ∧ ∀ history, σ'.stored r = some history →
      (history ++ pendingTexts r (before ++ x' :: after)).Perm all)
    (hpresent : σ'.channel r ≠ none →
      (σ'.texts ++ σ'.underway ++ pendingTexts r (before ++ x' :: after)).Perm all)
    (hunderway : σ'.underway.Perm
      ((before ++ x' :: after).flatMap fun thread => thread.record.underway))
    (hroom : σ.channel r ≠ none → σ'.channel r ≠ none)
    (hfound : x'.record.found = true → σ'.channel r ≠ none)
    (hactor : ∀ s, x.record.job = .join s → JoinerInv view r σ x.record s →
      JoinerInv view r σ' x'.record s)
    (hothers : ∀ thread ∈ before ++ after, ∀ t, thread.record.job = .join t →
      JoinerInv view r σ thread.record t → JoinerInv view r σ' thread.record t) :
    RoomInv view r all ⟨σ', before ++ x' :: after⟩ := by
  refine ⟨habsent, hpresent, hunderway, ?_, ?_⟩
  · refine forall_split hfound ?_
    intro thread hthread hf
    exact hroom (h.found thread (mem_of_mem_others hthread) hf)
  · refine forall_split ?_ ?_
    · intro s hs
      rw [hjob] at hs
      exact hactor s hs (h.joiner x List.mem_append_cons_self s hs)
    · intro thread hthread t ht
      exact hothers thread hthread t ht (h.joiner thread (mem_of_mem_others hthread) t ht)

/-- The same for a thread whose own text does not move. -/
theorem RoomInv.step_of_textless (h : RoomInv view r all ⟨σ, before ++ x :: after⟩)
    (hjob : x'.record.job = x.record.job) (hsent : x'.record.sent = x.record.sent)
    (hown : x'.record.underway = x.record.underway) (hunderway : σ'.underway = σ.underway)
    (habsent : σ'.channel r = none → σ'.underway = [] ∧ ∀ history, σ'.stored r = some history →
      (history ++ pendingTexts r (before ++ x :: after)).Perm all)
    (hpresent : σ'.channel r ≠ none →
      (σ'.texts ++ σ.underway ++ pendingTexts r (before ++ x :: after)).Perm all)
    (hroom : σ.channel r ≠ none → σ'.channel r ≠ none)
    (hfound : x'.record.found = true → σ'.channel r ≠ none)
    (hactor : ∀ s, x.record.job = .join s → JoinerInv view r σ x.record s →
      JoinerInv view r σ' x'.record s)
    (hothers : ∀ thread ∈ before ++ after, ∀ t, thread.record.job = .join t →
      JoinerInv view r σ thread.record t → JoinerInv view r σ' thread.record t) :
    RoomInv view r all ⟨σ', before ++ x' :: after⟩ := by
  have hpending : x'.record.pending r = x.record.pending r := by
    rw [RoomRecord.pending, RoomRecord.pending, hjob, hsent]
  refine h.step hjob ?_ ?_ ?_ hroom hfound hactor hothers
  · rw [pendingTexts_congr hpending]
    exact habsent
  · rw [pendingTexts_congr hpending, hunderway]
    exact hpresent
  · rw [flatMap_underway_congr hown, hunderway]
    exact h.underway

/-- An action that changes neither the entries nor the texts. -/
theorem RoomInv.quiet (h : RoomInv view r all ⟨σ, before ++ x :: after⟩)
    (hstored : σ.channel r = none → σ'.stored r = σ.stored r) (htexts : σ'.texts = σ.texts)
    (hunderway : σ'.underway = σ.underway) (hhanded : σ'.handedTexts = σ.handedTexts)
    (hroom : σ'.channel r = none ↔ σ.channel r = none)
    (hsubscribers : ∀ ch', σ'.channel r = some ch' →
      ∃ ch, σ.channel r = some ch ∧ ch'.subscribers = ch.subscribers)
    (hjob : x'.record.job = x.record.job) (hsent : x'.record.sent = x.record.sent)
    (hown : x'.record.underway = x.record.underway) (hseen : x'.record.seen = x.record.seen)
    (hsubscribed : x'.record.subscribed = x.record.subscribed)
    (hfound : x'.record.found = true → σ.channel r ≠ none) :
    RoomInv view r all ⟨σ', before ++ x' :: after⟩ := by
  have hroom' : σ'.channel r ≠ none ↔ σ.channel r ≠ none := not_congr hroom
  have hperm : (σ.texts ++ σ.underway).Perm (σ'.texts ++ σ'.underway) := by
    rw [htexts, hunderway]
  have hkeep : ∀ {record record' : RoomRecord} {s : ConnectionId},
      JoinerInv view r σ record s → record'.seen = record.seen →
        record'.subscribed = record.subscribed → JoinerInv view r σ' record' s :=
    fun hinv hs hsub =>
      hinv.congr hsubscribers hroom'.mpr (by rw [hhanded]) hperm hs hsub
  refine h.step_of_textless hjob hsent hown hunderway ?_ ?_ hroom'.mpr
    (fun hf => hroom'.mpr (hfound hf)) ?_ ?_
  · intro hnone
    rw [hstored (hroom.mp hnone), hunderway]
    exact h.absent (hroom.mp hnone)
  · intro hsome
    rw [htexts]
    exact h.present (hroom'.mp hsome)
  · intro s _ hinv
    exact hkeep hinv hseen hsubscribed
  · intro thread _ t _ hinv
    exact hkeep hinv rfl rfl

/-! ### The actions of a join -/

section Join

variable {task : RoomJob} {next next' : RoomProgram Unit} {record : RoomRecord}
  {s : ConnectionId} {ch : Channel}

theorem RoomInv.insert {history : List TextSendData}
    (h : RoomInv view r all ⟨σ, before ++ ⟨task, next, record⟩ :: after⟩)
    (hnone : σ.channel r = none) (hstored : σ.stored r = some history) :
    RoomInv view r all
      ⟨{ σ.setChannel r ⟨r, ∅, history⟩ with texts := history },
        before ++ ⟨task, next', { record with found := true }⟩ :: after⟩ := by
  obtain ⟨hunderway, hbalance⟩ : σ.underway = [] ∧ ∀ history, σ.stored r = some history → _ :=
    h.absent hnone
  have hroom : ({ σ.setChannel r ⟨r, ∅, history⟩ with texts := history } : RoomShared D).channel r =
      some ⟨r, ∅, history⟩ := AList.lookup_insert _
  have hwaiting : ∀ {record record' : RoomRecord} {t : ConnectionId},
      JoinerInv view r σ record t → record'.seen = record.seen →
        record'.subscribed = record.subscribed →
        JoinerInv view r { σ.setChannel r ⟨r, ∅, history⟩ with texts := history } record' t := by
    intro record record' t hinv hseen hsubscribed
    cases hsub : record.subscribed with
    | true =>
        obtain ⟨ch, hch, -⟩ := (joinerInv_subscribed hsub).mp hinv
        rw [hnone] at hch
        cases hch
    | false =>
        obtain ⟨hhanded, -⟩ := (joinerInv_waiting hsub).mp hinv
        refine (joinerInv_waiting (hsubscribed.trans hsub)).mpr ⟨hseen ▸ hhanded, ?_⟩
        intro ch hch
        rw [hroom, Option.some.injEq] at hch
        subst hch
        exact ⟨AList.notMem_empty _, fun k hk => by simp at hk⟩
  refine h.step_of_textless rfl rfl rfl rfl ?_ ?_ ?_ ?_ ?_ ?_
  · intro habsent
    rw [hroom] at habsent
    cases habsent
  · intro _
    show (history ++ σ.underway ++ _).Perm _
    rw [hunderway, List.append_nil]
    exact hbalance history hstored
  · intro hsome
    exact absurd hnone hsome
  · intro _
    rw [hroom]
    exact Option.some_ne_none _
  · intro t _ hinv
    exact hwaiting hinv rfl rfl
  · intro thread _ t _ hinv
    exact hwaiting hinv rfl rfl

theorem RoomInv.replay
    (h : RoomInv view r all ⟨σ, before ++ ⟨task, next, record⟩ :: after⟩)
    (hdistinct : DistinctJoiners view (jobs (before ++ ⟨task, next, record⟩ :: after)))
    (hjob : record.job = .join s) (hseen : record.seen = none)
    (hsubscribed : record.subscribed = false) (deliveries : List Delivery) :
    RoomInv view r all
      ⟨{ σ with
          deliveries := deliveries
          handedTexts := σ.handedTexts ++ σ.texts.map fun data => ⟨s, data⟩ },
        before ++ ⟨task, next', { record with seen := some σ.texts }⟩ :: after⟩ := by
  refine h.step_of_textless rfl rfl rfl rfl h.absent h.present id
    (h.found ⟨task, next, record⟩ List.mem_append_cons_self) ?_ ?_
  · intro t ht hinv
    rw [hjob, RoomJob.join.injEq] at ht
    subst ht
    obtain ⟨hhanded, hnone⟩ := (joinerInv_waiting hsubscribed).mp hinv
    have hstill : ({ record with seen := some σ.texts } : RoomRecord).subscribed = false :=
      hsubscribed
    refine (joinerInv_waiting hstill).mpr ⟨?_, hnone⟩
    rw [Channel.handedTo_append, hhanded, hseen, Channel.handedTo_replay, if_pos rfl]
    rfl
  · intro thread hthread t ht hinv
    have hne : t ≠ s := fun heq => hdistinct.ne hjob hthread ht (by rw [heq])
    refine hinv.congr (fun ch hch => ⟨ch, hch, rfl⟩) id ?_ (.refl _) rfl rfl
    rw [Channel.handedTo_append, Channel.handedTo_replay, if_neg hne, List.append_nil]

theorem RoomInv.subscribe
    (h : RoomInv view r all ⟨σ, before ++ ⟨task, next, record⟩ :: after⟩)
    (hdistinct : DistinctJoiners view (jobs (before ++ ⟨task, next, record⟩ :: after)))
    (hch : σ.channel r = some ch) (hjob : record.job = .join s)
    (hsubscribed : record.subscribed = false) (hunderway : σ.underway = [])
    (hseen : record.seen = some σ.texts) :
    RoomInv view r all
      ⟨σ.setChannel r { ch with subscribers := ch.subscribers.tryEmplace (view s).clientId s },
        before ++ ⟨task, next', { record with subscribed := true }⟩ :: after⟩ := by
  obtain ⟨hhanded, hnone⟩ := (joinerInv_waiting hsubscribed).mp
    (h.joiner ⟨task, next, record⟩ List.mem_append_cons_self s hjob)
  obtain ⟨hfree, hnobody⟩ := hnone ch hch
  let σ' : RoomShared D :=
    σ.setChannel r { ch with subscribers := ch.subscribers.tryEmplace (view s).clientId s }
  have hroom : σ'.channel r =
      some { ch with subscribers := ch.subscribers.tryEmplace (view s).clientId s } :=
    AList.lookup_insert _
  have hlookup : ∀ k, (ch.subscribers.tryEmplace (view s).clientId s).lookup k =
      if k = (view s).clientId then some s else ch.subscribers.lookup k := by
    intro k
    rw [UnorderedMap.lookup_tryEmplace, AList.lookup_eq_none.mpr hfree]
    rfl
  refine h.step_of_textless rfl rfl rfl rfl ?_ ?_ ?_ ?_ ?_ ?_
  · intro habsent
    rw [hroom] at habsent
    cases habsent
  · intro _
    exact h.present (by rw [hch]; exact Option.some_ne_none _)
  · intro _
    rw [hroom]
    exact Option.some_ne_none _
  · intro _
    rw [hroom]
    exact Option.some_ne_none _
  · intro t ht _
    rw [hjob, RoomJob.join.injEq] at ht
    subst ht
    refine (joinerInv_subscribed rfl).mpr ⟨_, hroom, ?_, ?_, ?_⟩
    · rw [hlookup, if_pos rfl]
    · intro k hk
      rw [hlookup] at hk
      split at hk
      · assumption
      · exact absurd hk (hnobody k)
    · show (Channel.handedTo s σ.handedTexts).Perm (σ.texts ++ σ.underway)
      rw [hhanded, hseen, hunderway, List.append_nil]
      exact .refl _
  · intro thread hthread t ht hinv
    have hid : (view t).clientId ≠ (view s).clientId := hdistinct.ne hjob hthread ht
    have hne : s ≠ t := fun heq => hid (by rw [heq])
    cases hsub : thread.record.subscribed with
    | true =>
        obtain ⟨ch₀, hch₀, hown, honly, hperm⟩ := (joinerInv_subscribed hsub).mp hinv
        rw [hch, Option.some.injEq] at hch₀
        subst hch₀
        refine (joinerInv_subscribed hsub).mpr ⟨_, hroom, ?_, ?_, hperm⟩
        · rw [hlookup, if_neg hid]
          exact hown
        · intro k hk
          rw [hlookup] at hk
          split at hk
          · exact absurd (Option.some.inj hk) hne
          · exact honly k hk
    | false =>
        obtain ⟨hthanded, htnone⟩ := (joinerInv_waiting hsub).mp hinv
        obtain ⟨htfree, htnobody⟩ := htnone ch hch
        refine (joinerInv_waiting hsub).mpr ⟨hthanded, ?_⟩
        intro ch' hch'
        rw [hroom, Option.some.injEq] at hch'
        subst hch'
        refine ⟨?_, ?_⟩
        · rw [UnorderedMap.mem_tryEmplace]
          rintro (heq | hmem)
          · exact hid heq
          · exact htfree hmem
        · intro k hk
          rw [hlookup] at hk
          split at hk
          · exact hne (Option.some.inj hk)
          · exact htnobody k hk

/-- A notice is appended to the history and is no text. -/
theorem RoomInv.appendNotice {data : TextSendData}
    (h : RoomInv view r all ⟨σ, before ++ ⟨task, next, record⟩ :: after⟩)
    (hch : σ.channel r = some ch) :
    RoomInv view r all
      ⟨σ.setChannel r { ch with historyRoom := ch.historyRoom ++ [data] },
        before ++ ⟨task, next', record⟩ :: after⟩ := by
  let σ' : RoomShared D := σ.setChannel r { ch with historyRoom := ch.historyRoom ++ [data] }
  have hroom : σ'.channel r = some { ch with historyRoom := ch.historyRoom ++ [data] } :=
    AList.lookup_insert _
  have hsome : σ.channel r ≠ none := by
    rw [hch]
    exact Option.some_ne_none _
  refine h.quiet (fun _ => rfl) rfl rfl rfl ?_ ?_ rfl rfl rfl rfl rfl (fun _ => hsome)
  · exact iff_of_false (by rw [hroom]; exact Option.some_ne_none _) hsome
  · intro ch' hch'
    rw [hroom, Option.some.injEq] at hch'
    subst hch'
    exact ⟨ch, hch, rfl⟩

end Join

/-! ### The actions of a text -/

section Text

variable {task : RoomJob} {next next' : RoomProgram Unit} {record : RoomRecord} {ch : Channel}
  {data : TextSendData}

theorem pendingTexts_sent (hdata : record.job.data r = [data]) (hsent : record.sent = false)
    (hx : x.record = record) (hx' : x'.record.sent = true) :
    (pendingTexts r (before ++ x :: after)).Perm
      ([data] ++ pendingTexts r (before ++ x' :: after)) := by
  have hbefore : x.record.pending r = [data] := by simp [hx, RoomRecord.pending, hsent, hdata]
  have hafter : x'.record.pending r = [] := by simp [RoomRecord.pending, hx']
  rw [pendingTexts_split, pendingTexts_split, hbefore, hafter, List.nil_append,
    List.singleton_append, List.singleton_append]
  exact List.perm_middle

theorem not_join_of_data (hdata : record.job.data r = [data]) (s : ConnectionId) :
    record.job ≠ .join s := by
  intro hjob
  rw [hjob] at hdata
  cases hdata

/-- A delivered text reaches every subscribed joiner once, and nobody else. -/
theorem JoinerInv.deliver {s : ConnectionId} (h : JoinerInv view r σ record s)
    (hch : σ.channel r = some ch) (deliveries : List Delivery) (data : TextSendData) :
    JoinerInv view r
      { σ with
        deliveries := deliveries
        underway := σ.underway ++ [data]
        handedTexts := σ.handedTexts ++ ch.subscribers.values.map fun sub => ⟨sub, data⟩ }
      record s := by
  cases hsub : record.subscribed with
  | true =>
      obtain ⟨ch₀, hch₀, hown, honly, hperm⟩ := (joinerInv_subscribed hsub).mp h
      rw [hch, Option.some.injEq] at hch₀
      subst hch₀
      refine (joinerInv_subscribed hsub).mpr ⟨ch, hch, hown, honly, ?_⟩
      rw [Channel.handedTo_append, Channel.handedTo_map,
        UnorderedMap.count_values_eq_one hown honly, List.replicate_one]
      show (_ ++ [data]).Perm (σ.texts ++ (σ.underway ++ [data]))
      rw [← List.append_assoc]
      exact hperm.append_right [data]
  | false =>
      obtain ⟨hhanded, hnone⟩ := (joinerInv_waiting hsub).mp h
      refine (joinerInv_waiting hsub).mpr ⟨?_, hnone⟩
      have hcount : ch.subscribers.values.count s = 0 := by
        rw [List.count_eq_zero]
        intro hmem
        obtain ⟨k, hk⟩ := UnorderedMap.mem_values.mp hmem
        exact (hnone ch hch).2 k hk
      rw [Channel.handedTo_append, Channel.handedTo_map, hcount, List.replicate_zero,
        List.append_nil]
      exact hhanded

theorem RoomInv.deliver (h : RoomInv view r all ⟨σ, before ++ ⟨task, next, record⟩ :: after⟩)
    (hch : σ.channel r = some ch) (hdata : record.job.data r = [data])
    (hsent : record.sent = false) (hown : record.underway = []) (deliveries : List Delivery) :
    RoomInv view r all
      ⟨{ σ with
          deliveries := deliveries
          underway := σ.underway ++ [data]
          handedTexts := σ.handedTexts ++ ch.subscribers.values.map fun sub => ⟨sub, data⟩ },
        before ++ ⟨task, next', { record with sent := true, underway := [data] }⟩ :: after⟩ := by
  have hsome : σ.channel r ≠ none := by
    rw [hch]
    exact Option.some_ne_none _
  refine h.step rfl (fun habsent => absurd habsent hsome) ?_ ?_ id (fun _ => hsome) ?_ ?_
  · intro _
    have hpending := @pendingTexts_sent r before after ⟨task, next, record⟩
      ⟨task, next', { record with sent := true, underway := [data] }⟩ record data hdata hsent rfl rfl
    refine List.Perm.trans ?_ (h.present hsome)
    show (σ.texts ++ (σ.underway ++ [data]) ++ _).Perm (σ.texts ++ σ.underway ++ _)
    rw [← List.append_assoc, List.append_assoc (σ.texts ++ σ.underway)]
    exact hpending.symm.append_left _
  · have hold : σ.underway.Perm (before.flatMap (fun thread => thread.record.underway) ++
        after.flatMap fun thread => thread.record.underway) := by
      simpa [hown] using h.underway
    rw [List.flatMap_append, List.flatMap_cons]
    show (σ.underway ++ [data]).Perm (_ ++ ([data] ++ _))
    refine (hold.append_right [data]).trans ?_
    rw [List.append_assoc]
    exact List.perm_append_comm.append_left _
  · intro s hs
    exact absurd hs (not_join_of_data hdata s)
  · intro thread _ t _ hinv
    exact hinv.deliver hch deliveries data

theorem RoomInv.append (h : RoomInv view r all ⟨σ, before ++ ⟨task, next, record⟩ :: after⟩)
    (hch : σ.channel r = some ch) (hown : record.underway = [data]) :
    RoomInv view r all
      ⟨{ σ.setChannel r { ch with historyRoom := ch.historyRoom ++ [data] } with
          texts := σ.texts ++ [data]
          underway := σ.underway.erase data },
        before ++ ⟨task, next', { record with underway := [] }⟩ :: after⟩ := by
  let σ' : RoomShared D :=
    { σ.setChannel r { ch with historyRoom := ch.historyRoom ++ [data] } with
      texts := σ.texts ++ [data]
      underway := σ.underway.erase data }
  have hroom : σ'.channel r = some { ch with historyRoom := ch.historyRoom ++ [data] } :=
    AList.lookup_insert _
  have hroom' : σ'.channel r ≠ none := by
    rw [hroom]
    exact Option.some_ne_none _
  have hsome : σ.channel r ≠ none := by
    rw [hch]
    exact Option.some_ne_none _
  have hunderway : σ.underway.Perm ([data] ++
      (before.flatMap (fun thread => thread.record.underway) ++
        after.flatMap fun thread => thread.record.underway)) := by
    refine h.underway.trans ?_
    rw [List.flatMap_append, List.flatMap_cons, hown, List.singleton_append,
      List.singleton_append]
    exact List.perm_middle
  have hmem : data ∈ σ.underway := hunderway.mem_iff.mpr (by simp)
  have htexts : (σ.texts ++ σ.underway).Perm (σ.texts ++ [data] ++ σ.underway.erase data) := by
    rw [List.append_assoc]
    exact (List.perm_cons_erase hmem).append_left _
  have hsubscribers : ∀ ch', σ'.channel r = some ch' →
      ∃ ch, σ.channel r = some ch ∧ ch'.subscribers = ch.subscribers := by
    intro ch' hch'
    rw [hroom, Option.some.injEq] at hch'
    subst hch'
    exact ⟨ch, hch, rfl⟩
  refine h.step rfl (fun habsent => absurd habsent hroom') ?_ ?_ (fun _ => hroom')
    (fun _ => hroom') ?_ ?_
  · intro _
    rw [@pendingTexts_congr r before after ⟨task, next, record⟩
      ⟨task, next', { record with underway := [] }⟩ rfl]
    exact (htexts.symm.append_right _).trans (h.present hsome)
  · rw [List.flatMap_append, List.flatMap_cons]
    have herase := hunderway.erase data
    rw [List.singleton_append, List.erase_cons_head] at herase
    exact herase
  · intro s _ hinv
    exact hinv.congr hsubscribers (fun _ => hroom') rfl htexts rfl rfl
  · intro thread _ t _ hinv
    exact hinv.congr hsubscribers (fun _ => hroom') rfl htexts rfl rfl

/-- A text that found no channel is stored. -/
theorem RoomInv.save_absent {db : D.State}
    (h : RoomInv view r all ⟨σ, before ++ ⟨task, next, record⟩ :: after⟩)
    (hnone : σ.channel r = none) (hdata : record.job.data r = [data])
    (hsent : record.sent = false) (hfound : record.found = false)
    (hstored : (σ.setDb db).stored r = (σ.stored r).map (· ++ [data])) :
    RoomInv view r all
      ⟨σ.setDb db, before ++ ⟨task, next', { record with sent := true }⟩ :: after⟩ := by
  obtain ⟨hunderway, hbalance⟩ : σ.underway = [] ∧ ∀ history, σ.stored r = some history → _ :=
    h.absent hnone
  refine h.step rfl ?_ (fun hsome => absurd hnone hsome) ?_ id ?_ ?_ ?_
  · intro _
    refine ⟨hunderway, ?_⟩
    intro history' hhistory'
    rw [hstored] at hhistory'
    obtain ⟨history, hhistory, rfl⟩ := Option.map_eq_some_iff.mp hhistory'
    have hpending := @pendingTexts_sent r before after ⟨task, next, record⟩
      ⟨task, next', { record with sent := true }⟩ record data hdata hsent rfl rfl
    refine List.Perm.trans ?_ (hbalance history hhistory)
    rw [List.append_assoc]
    exact hpending.symm.append_left _
  · rw [@flatMap_underway_congr before after ⟨task, next, record⟩
      ⟨task, next', { record with sent := true }⟩ rfl]
    exact h.underway
  · intro hf
    exact absurd hf (by simp [hfound])
  · intro s hs
    exact absurd hs (not_join_of_data hdata s)
  · intro thread _ t _ hinv
    exact hinv.congr (fun ch hch => ⟨ch, hch, rfl⟩) id rfl (.refl _) rfl rfl

end Text

end Step

end AppChat
