/-
  `Channel.RoomJoins`: no text is lost to a joiner outside of the windows.

  The invariant of `Channel.RoomRaces` over whole runs, and what it says about the
  deliveries themselves: beside the texts a joiner is handed only notices.
-/
import AppChat.Channel.RoomRaces
import AppChat.Storage.MemorySqlite

set_option autoImplicit false

namespace AppChat

open Foundation Storage

variable {D : DatabaseOps} {view : View} {r : Identifier}

/-! ## The counts over a run -/

section Counts

variable {σ σ' : RoomShared D} {before after : List RoomThread} {task : RoomJob}
  {record : RoomRecord} {all : List TextSendData} {a : RoomAct} {next : a.Res → RoomProgram Unit}
  {result : a.Res}

/-- One action, done where the order of the program and the condition allow it. -/
theorem roomInv_exec (hrequires : record.requires view r a) (hguard : RoomGuard r σ record a)
    (hexec : σ.exec view r a = some (σ', result))
    (hdistinct : DistinctJoiners view (jobs (before ++ ⟨task, .act a next, record⟩ :: after)))
    (h : RoomInv view r all ⟨σ, before ++ ⟨task, .act a next, record⟩ :: after⟩) :
    RoomInv view r all
      ⟨σ', before ++ ⟨task, next result, record.note σ a result⟩ :: after⟩ := by
  have hfound : record.found = true → σ.channel r ≠ none :=
    h.found ⟨task, .act a next, record⟩ List.mem_append_cons_self
  cases a with
  | recordRoom s =>
      cases hexec
      exact h.quiet (fun _ => rfl) rfl rfl rfl Iff.rfl (fun ch hch => ⟨ch, hch, rfl⟩) rfl rfl rfl
        rfl rfl hfound
  | recordLogin s =>
      cases hexec
      exact h.quiet (fun _ => rfl) rfl rfl rfl Iff.rfl (fun ch hch => ⟨ch, hch, rfl⟩) rfl rfl rfl
        rfl rfl hfound
  | answer s flag =>
      cases hexec
      exact h.quiet (fun _ => rfl) rfl rfl rfl Iff.rfl (fun ch hch => ⟨ch, hch, rfl⟩) rfl rfl rfl
        rfl rfl hfound
  | find =>
      cases hexec
      refine h.quiet (fun _ => rfl) rfl rfl rfl Iff.rfl (fun ch hch => ⟨ch, hch, rfl⟩) rfl rfl rfl
        rfl rfl ?_
      intro hsome
      exact Option.isSome_iff_ne_none.mp hsome
  | load =>
      obtain ⟨history, hhistory, heq⟩ := Option.map_eq_some_iff.mp hexec
      cases heq
      have hdb : (D.getHistory σ.chat.db r).1 = σ.chat.db := hguard
      rw [hdb]
      exact h.quiet (fun _ => rfl) rfl rfl rfl Iff.rfl (fun ch hch => ⟨ch, hch, rfl⟩) rfl rfl rfl
        rfl rfl hfound
  | insert history =>
      obtain ⟨hnone, hstored⟩ := hguard
      have hlookup : σ.chat.manager.channels.lookup r = none := hnone
      simp only [RoomShared.exec, UnorderedMap.emplace_of_lookup_none hlookup, if_true] at hexec
      cases hexec
      exact h.insert hnone hstored
  | replay s =>
      obtain ⟨ch, hch, heq⟩ := Option.map_eq_some_iff.mp hexec
      cases heq
      obtain ⟨hjob, -, hseen, hsubscribed⟩ := hrequires
      exact h.replay hdistinct hjob hseen hsubscribed _
  | subscribe s =>
      obtain ⟨ch, hch, heq⟩ := Option.map_eq_some_iff.mp hexec
      cases heq
      obtain ⟨hjob, -, hsubscribed⟩ := hrequires
      exact h.subscribe hdistinct hch hjob hsubscribed hguard.1 hguard.2
  | deliver data isText =>
      obtain ⟨ch, hch, heq⟩ := Option.map_eq_some_iff.mp hexec
      cases heq
      cases isText with
      | true => exact h.deliver hch hrequires.1 hrequires.2.1 hrequires.2.2 _
      | false =>
          exact h.quiet (fun _ => rfl) rfl rfl rfl Iff.rfl (fun ch hch => ⟨ch, hch, rfl⟩) rfl rfl
            rfl rfl rfl hfound
  | append data isText =>
      obtain ⟨ch, hch, heq⟩ := Option.map_eq_some_iff.mp hexec
      cases heq
      cases isText with
      | true => exact h.append hch hrequires
      | false => exact h.appendNotice hch
  | save data =>
      cases hexec
      obtain ⟨hdata, hsent⟩ := hrequires
      cases hf : record.found with
      | false =>
          obtain ⟨hnone, hstored⟩ := hguard hf
          exact h.save_absent hnone hdata (hsent.trans hf) hf hstored
      | true =>
          have hsome : σ.channel r ≠ none := hfound hf
          exact h.quiet (fun hnone => absurd hnone hsome) rfl rfl rfl Iff.rfl
            (fun ch hch => ⟨ch, hch, rfl⟩) rfl (hsent.trans hf).symm rfl rfl rfl hfound

end Counts

/-! ## Notices -/

/-- The elements of `xs` are those of `ys` and some with `P`. -/
def Beside {α : Type} (P : α → Prop) (ys xs : List α) : Prop :=
  ∃ zs, (∀ z ∈ zs, P z) ∧ xs.Perm (ys ++ zs)

namespace Beside

variable {α : Type} {P : α → Prop} {xs xs' ys ys' : List α}

theorem refl (xs : List α) : Beside P xs xs :=
  ⟨[], fun _ hz => absurd hz List.not_mem_nil, by rw [List.append_nil]⟩

theorem of_forall (h : ∀ x ∈ xs, P x) : Beside P [] xs := ⟨xs, h, .refl _⟩

theorem append (h : Beside P ys xs) (h' : Beside P ys' xs') :
    Beside P (ys ++ ys') (xs ++ xs') := by
  obtain ⟨zs, hzs, hperm⟩ := h
  obtain ⟨zs', hzs', hperm'⟩ := h'
  refine ⟨zs ++ zs', ?_, ?_⟩
  · intro z hz
    rcases List.mem_append.mp hz with hleft | hright
    · exact hzs z hleft
    · exact hzs' z hright
  · refine (hperm.append hperm').trans ?_
    rw [List.append_assoc, List.append_assoc, ← List.append_assoc zs, ← List.append_assoc ys']
    exact (List.perm_append_comm.append_right zs').append_left ys

theorem add (h : Beside P ys xs) (hadd : ∀ x ∈ xs', P x) : Beside P ys (xs ++ xs') := by
  have hboth := h.append (of_forall hadd)
  rw [List.append_nil] at hboth
  exact hboth

theorem map {β : Type} {Q : β → Prop} {f : α → β} (h : Beside P ys xs)
    (hf : ∀ x, P x → Q (f x)) : Beside Q (ys.map f) (xs.map f) := by
  obtain ⟨zs, hzs, hperm⟩ := h
  refine ⟨zs.map f, ?_, ?_⟩
  · intro z hz
    obtain ⟨x, hx, rfl⟩ := List.mem_map.mp hz
    exact hf x (hzs x hx)
  · rw [← List.map_append]
    exact hperm.map f

theorem filter (h : Beside P ys xs) (p : α → Bool) : Beside P (ys.filter p) (xs.filter p) := by
  obtain ⟨zs, hzs, hperm⟩ := h
  refine ⟨zs.filter p, fun z hz => hzs z (List.mem_of_mem_filter hz), ?_⟩
  rw [← List.filter_append]
  exact hperm.filter p

theorem perm (h : Beside P ys xs) (hys : ys.Perm ys') : Beside P ys' xs := by
  obtain ⟨zs, hzs, hperm⟩ := h
  exact ⟨zs, hzs, hperm.trans (hys.append_right zs)⟩

end Beside

/-- The history has the texts, the deliveries are those of texts, and beside them
there are only notices. -/
structure NoticeInv (view : View) (r : Identifier) (σ : RoomShared D) : Prop where
  history : ∀ ch, σ.channel r = some ch → Beside (IsNotice view r) σ.texts ch.historyRoom
  handed : Beside (fun delivery => IsNotice view r delivery.data) σ.handedTexts σ.deliveries

theorem noticeInv_exec {σ σ' : RoomShared D} {record : RoomRecord} {a : RoomAct} {result : a.Res}
    (hrequires : record.requires view r a) (hguard : RoomGuard r σ record a)
    (hexec : σ.exec view r a = some (σ', result)) (h : NoticeInv view r σ) :
    NoticeInv view r σ' := by
  cases a with
  | recordRoom s | recordLogin s | answer s flag | find | save data =>
      cases hexec
      exact ⟨h.history, h.handed⟩
  | load =>
      obtain ⟨history, hhistory, heq⟩ := Option.map_eq_some_iff.mp hexec
      cases heq
      exact ⟨h.history, h.handed⟩
  | insert history =>
      have hlookup : σ.chat.manager.channels.lookup r = none := hguard.1
      simp only [RoomShared.exec, UnorderedMap.emplace_of_lookup_none hlookup, if_true] at hexec
      cases hexec
      refine ⟨?_, h.handed⟩
      intro ch hch
      have heq : some (⟨r, ∅, history⟩ : Channel) = some ch := (AList.lookup_insert _).symm.trans hch
      cases heq
      exact .refl _
  | replay s =>
      obtain ⟨ch, hch, heq⟩ := Option.map_eq_some_iff.mp hexec
      cases heq
      exact ⟨h.history, h.handed.append ((h.history ch hch).map fun _ hx => hx)⟩
  | subscribe s =>
      obtain ⟨ch, hch, heq⟩ := Option.map_eq_some_iff.mp hexec
      cases heq
      refine ⟨?_, h.handed⟩
      intro ch' hch'
      have heq := Option.some.inj ((AList.lookup_insert _).symm.trans hch')
      subst heq
      exact h.history ch hch
  | deliver data isText =>
      obtain ⟨ch, hch, heq⟩ := Option.map_eq_some_iff.mp hexec
      cases heq
      cases isText with
      | true => exact ⟨h.history, h.handed.append (.refl _)⟩
      | false =>
          refine ⟨h.history, h.handed.add ?_⟩
          intro delivery hdelivery
          obtain ⟨sub, -, rfl⟩ := List.mem_map.mp hdelivery
          exact hrequires
  | append data isText =>
      obtain ⟨ch, hch, heq⟩ := Option.map_eq_some_iff.mp hexec
      cases heq
      cases isText with
      | true =>
          refine ⟨?_, h.handed⟩
          intro ch' hch'
          have heq := Option.some.inj ((AList.lookup_insert _).symm.trans hch')
          subst heq
          exact (h.history ch hch).append (.refl _)
      | false =>
          refine ⟨?_, h.handed⟩
          intro ch' hch'
          have heq := Option.some.inj ((AList.lookup_insert _).symm.trans hch')
          subst heq
          refine (h.history ch hch).add ?_
          intro x hx
          rw [List.mem_singleton] at hx
          subst hx
          exact hrequires

/-! ## Answers -/

/-- Every answer is `true` and that of a subscribed joiner, and an answered joiner has
its answer. -/
structure AnswersInv (p : RoomPool D) : Prop where
  answers : ∀ s flag, (s, flag) ∈ p.shared.answers → flag = true ∧
    ∃ thread ∈ p.threads, thread.record.job = .join s ∧ thread.record.subscribed = true
  answered : ∀ thread ∈ p.threads, ∀ s, thread.record.job = .join s →
    thread.record.answered = true → (s, true) ∈ p.shared.answers

theorem answers_exec {σ σ' : RoomShared D} {a : RoomAct} {result : a.Res}
    (hexec : σ.exec view r a = some (σ', result)) :
    (∃ s flag, a = .answer s flag ∧ σ'.answers = σ.answers ++ [(s, flag)]) ∨
      σ'.answers = σ.answers ∧
        ∀ record : RoomRecord, (record.note σ a result).answered = record.answered := by
  cases a with
  | answer s flag =>
      cases hexec
      exact .inl ⟨s, flag, rfl, rfl⟩
  | recordRoom s | recordLogin s | find | save data =>
      cases hexec
      exact .inr ⟨rfl, fun _ => rfl⟩
  | insert history =>
      cases hexec
      refine .inr ⟨?_, fun _ => rfl⟩
      split <;> rfl
  | load | replay s | subscribe s =>
      obtain ⟨_, -, heq⟩ := Option.map_eq_some_iff.mp hexec
      cases heq
      exact .inr ⟨rfl, fun _ => rfl⟩
  | deliver data isText | append data isText =>
      obtain ⟨_, -, heq⟩ := Option.map_eq_some_iff.mp hexec
      cases heq
      cases isText <;> exact .inr ⟨rfl, fun _ => rfl⟩

theorem subscribed_note {σ : RoomShared D} {record : RoomRecord} {a : RoomAct} {result : a.Res}
    (h : record.subscribed = true) : (record.note σ a result).subscribed = true := by
  cases a with
  | subscribe s => rfl
  | deliver data isText | append data isText => cases isText <;> exact h
  | _ => exact h

theorem answersInv_exec {σ σ' : RoomShared D} {before after : List RoomThread} {task : RoomJob}
    {record : RoomRecord} {a : RoomAct} {next : a.Res → RoomProgram Unit} {result : a.Res}
    (hrequires : record.requires view r a) (hexec : σ.exec view r a = some (σ', result))
    (h : AnswersInv ⟨σ, before ++ ⟨task, .act a next, record⟩ :: after⟩) :
    AnswersInv ⟨σ', before ++ ⟨task, next result, record.note σ a result⟩ :: after⟩ := by
  let x : RoomThread := ⟨task, .act a next, record⟩
  let x' : RoomThread := ⟨task, next result, record.note σ a result⟩
  have hjob : x'.record.job = record.job := note_job σ record a result
  have hmem : ∀ {s : ConnectionId},
      (∃ thread ∈ before ++ x :: after, thread.record.job = .join s ∧
        thread.record.subscribed = true) →
      ∃ thread ∈ before ++ x' :: after, thread.record.job = .join s ∧
        thread.record.subscribed = true := by
    rintro s ⟨thread, hthread, hs, hsub⟩
    rcases List.mem_append.mp hthread with hbefore | hrest
    · exact ⟨thread, List.mem_append_left _ hbefore, hs, hsub⟩
    · rcases List.mem_cons.mp hrest with rfl | hafter
      · exact ⟨x', List.mem_append_cons_self, hjob.trans hs, subscribed_note hsub⟩
      · exact ⟨thread, List.mem_append_right _ (List.mem_cons_of_mem _ hafter), hs, hsub⟩
  rcases answers_exec hexec with ⟨s, flag, rfl, hanswers⟩ | ⟨hanswers, hkept⟩
  · obtain ⟨hrjob, rfl, hsub⟩ := hrequires
    refine ⟨?_, ?_⟩
    · intro t flag ht
      rw [hanswers] at ht
      rcases List.mem_append.mp ht with hold | hnew
      · obtain ⟨hflag, hthread⟩ := h.answers t flag hold
        exact ⟨hflag, hmem hthread⟩
      · rw [List.mem_singleton, Prod.mk.injEq] at hnew
        obtain ⟨rfl, rfl⟩ := hnew
        exact ⟨rfl, x', List.mem_append_cons_self, hrjob, hsub⟩
    · refine forall_split ?_ ?_
      · intro t ht _
        have heq : s = t := RoomJob.join.inj (hrjob.symm.trans ht)
        subst heq
        rw [hanswers]
        simp
      · intro thread hthread t ht hansw
        rw [hanswers]
        exact List.mem_append_left _ (h.answered thread (mem_of_mem_others hthread) t ht hansw)
  · refine ⟨?_, ?_⟩
    · intro t flag ht
      rw [hanswers] at ht
      obtain ⟨hflag, hthread⟩ := h.answers t flag ht
      exact ⟨hflag, hmem hthread⟩
    · refine forall_split ?_ ?_
      · intro t ht hansw
        rw [hanswers]
        exact h.answered x List.mem_append_cons_self t (hjob.symm.trans ht)
          ((hkept record).symm.trans hansw)
      · intro thread hthread t ht hansw
        rw [hanswers]
        exact h.answered thread (mem_of_mem_others hthread) t ht hansw

/-! ## Runs -/

/-- The texts that the room has at the start: the history of its channel or, without
a channel, the stored history. -/
def roomTexts (chat : ChatState D) (r : Identifier) : List TextSendData :=
  match chat.manager.channels.lookup r with
  | some ch => ch.historyRoom
  | none => ((D.getHistory chat.db r).2).getD []

/-- The handlers of the jobs, none of which has started. -/
def roomStart (view : View) (r : Identifier) (chat : ChatState D) (tasks : List RoomJob) :
    RoomPool D where
  shared :=
    { chat := chat, texts := ((chat.manager.channels.lookup r).map (·.historyRoom)).getD [] }
  threads := tasks.map (roomThreads D view r).begin

/-- No joiner has an entry in the channel, and no joiner's id has one. -/
def NewJoiners (view : View) (r : Identifier) (chat : ChatState D) (tasks : List RoomJob) : Prop :=
  ∀ s, RoomJob.join s ∈ tasks → ∀ ch, chat.manager.channels.lookup r = some ch →
    (view s).clientId ∉ ch.subscribers ∧ ∀ k, ch.subscribers.lookup k ≠ some s

/-- The invariant of a run of the handlers of `tasks`. -/
structure RoomRunInv (view : View) (r : Identifier) (tasks : List RoomJob)
    (all : List TextSendData) (p : RoomPool D) : Prop where
  sound : (roomThreads D view r).Sound (roomPromise D view r) RoomJob.Done p
  tasks_eq : p.threads.map (·.task) = tasks
  jobs_eq : jobs p.threads = tasks
  room : RoomInv view r all p
  notices : NoticeInv view r p.shared
  answers : AnswersInv p

section Runs

variable {chat : ChatState D} {tasks : List RoomJob} {p p' : RoomPool D}

theorem mem_roomStart {thread : RoomThread}
    (h : thread ∈ (roomStart view r chat tasks).threads) :
    ∃ task ∈ tasks, thread = (roomThreads D view r).begin task := by
  obtain ⟨task, htask, rfl⟩ := List.mem_map.mp h
  exact ⟨task, htask, rfl⟩

theorem jobs_roomStart : jobs (roomStart view r chat tasks).threads = tasks := by
  rw [jobs, roomStart, List.map_map]
  exact List.map_id tasks

theorem tasks_roomStart : (roomStart view r chat tasks).threads.map (·.task) = tasks := by
  rw [roomStart, List.map_map]
  exact List.map_id tasks

theorem pendingTexts_roomStart :
    pendingTexts r (roomStart view r chat tasks).threads = tasks.flatMap (·.data r) := by
  simp [pendingTexts, roomStart, Machine.begin, roomThreads, RoomRecord.pending,
    List.flatMap_map]

theorem roomInv_start (hnew : NewJoiners view r chat tasks) :
    RoomInv view r (roomTexts chat r ++ tasks.flatMap (·.data r))
      (roomStart view r chat tasks) where
  absent := by
    intro hnone
    refine ⟨rfl, ?_⟩
    intro history hhistory
    have hlookup : chat.manager.channels.lookup r = none := hnone
    have hload : (D.getHistory chat.db r).2 = some history := hhistory
    rw [pendingTexts_roomStart, roomTexts, hlookup, hload]
    exact .refl _
  present := by
    intro hsome
    obtain ⟨ch, hch⟩ := Option.ne_none_iff_exists'.mp hsome
    have hlookup : chat.manager.channels.lookup r = some ch := hch
    rw [pendingTexts_roomStart, roomTexts, hlookup]
    simp [roomStart, hlookup]
  underway := by simp [roomStart, Machine.begin, roomThreads]
  found := by
    intro thread hthread hfound
    obtain ⟨task, -, rfl⟩ := mem_roomStart hthread
    cases hfound
  joiner := by
    intro thread hthread s hs
    obtain ⟨task, htask, rfl⟩ := mem_roomStart hthread
    have hjoin : task = .join s := hs
    subst hjoin
    exact (joinerInv_waiting rfl).mpr ⟨rfl, hnew s htask⟩

theorem noticeInv_start : NoticeInv view r (roomStart view r chat tasks).shared where
  history := by
    intro ch hch
    have hlookup : chat.manager.channels.lookup r = some ch := hch
    simp only [roomStart, hlookup, Option.map_some, Option.getD_some]
    exact .refl _
  handed := .refl _

theorem answersInv_start : AnswersInv (roomStart view r chat tasks) where
  answers := fun _ _ h => absurd h List.not_mem_nil
  answered := by
    intro thread hthread s _ hanswered
    obtain ⟨task, -, rfl⟩ := mem_roomStart hthread
    cases hanswered

theorem roomRunInv_start (hnew : NewJoiners view r chat tasks) :
    RoomRunInv view r tasks (roomTexts chat r ++ tasks.flatMap (·.data r))
      (roomStart view r chat tasks) where
  sound := by
    intro thread hthread
    obtain ⟨task, -, rfl⟩ := mem_roomStart hthread
    exact wp_roomProgram task
  tasks_eq := tasks_roomStart
  jobs_eq := jobs_roomStart
  room := roomInv_start hnew
  notices := noticeInv_start
  answers := answersInv_start

theorem roomRunInv_step {all : List TextSendData} (hdistinct : DistinctJoiners view tasks) {i : Nat}
    (hstep : Guarded (Machine.Meets (RoomGuard r)) (roomThreads D view r).Step p (.step i) p')
    (h : RoomRunInv view r tasks all p) : RoomRunInv view r tasks all p' := by
  have hsound := Machine.sound_step wp_roomProgram
    (fun _ _ _ _ _ hguard => returns_of_roomGuard hguard) hstep h.sound
  obtain ⟨hmeets, hstep⟩ := hstep
  cases hstep with
  | @step σ σ' before after task a next record result hexec =>
      have hrequires : record.requires view r a := h.sound.requires
      have hguard : RoomGuard r σ record a := hmeets.guard
      have hjobs : DistinctJoiners view
          (jobs (before ++ ⟨task, .act a next, record⟩ :: after)) := by
        rw [h.jobs_eq]
        exact hdistinct
      refine ⟨hsound, ?_, ?_, roomInv_exec hrequires hguard hexec hjobs h.room,
        noticeInv_exec hrequires hguard hexec h.notices,
        answersInv_exec hrequires hexec h.answers⟩
      · rw [← h.tasks_eq]
        simp
      · rw [← h.jobs_eq]
        simp [jobs, roomThreads]

theorem roomRunInv_run (hdistinct : DistinctJoiners view tasks) (hnew : NewJoiners view r chat tasks)
    {schedule : List Nat}
    (hrun : Run (Guarded (Machine.Meets (RoomGuard r)) (roomThreads D view r).Step)
      (roomStart view r chat tasks) (schedule.map .step) p) :
    RoomRunInv view r tasks (roomTexts chat r ++ tasks.flatMap (·.data r)) p := by
  refine hrun.invariant_of_mem ?_ (roomRunInv_start hnew)
  intro q e q' he hstep h
  obtain ⟨i, -, rfl⟩ := List.mem_map.mp he
  exact roomRunInv_step hdistinct hstep h

/-- A subscribed joiner has the entry of its id. -/
theorem RoomRunInv.subscriber {all : List TextSendData} (h : RoomRunInv view r tasks all p)
    {thread : RoomThread} (hthread : thread ∈ p.threads) {s : ConnectionId}
    (hjob : thread.record.job = .join s) (hsub : thread.record.subscribed = true) :
    ∃ ch, p.shared.channel r = some ch ∧ ch.subscribers.lookup (view s).clientId = some s := by
  obtain ⟨ch, hch, hown, -, -⟩ :=
    (joinerInv_subscribed hsub).mp (h.room.joiner thread hthread s hjob)
  exact ⟨ch, hch, hown⟩

/-- When all handlers have finished, every text has been sent and appended. -/
theorem RoomRunInv.quiet_texts {all : List TextSendData} (h : RoomRunInv view r tasks all p)
    (hquiet : p.Quiet) (hroom : p.shared.channel r ≠ none) :
    (p.shared.texts ++ p.shared.underway).Perm all := by
  have hpending : pendingTexts r p.threads = [] := by
    refine List.flatMap_eq_nil_iff.mpr ?_
    intro thread hthread
    obtain ⟨hjob, -, hdone⟩ := h.sound.finished hthread (hquiet thread hthread)
    rw [RoomRecord.pending, hjob]
    cases htask : thread.task with
    | join s => simp [RoomJob.data]
    | text login body =>
        rw [htask] at hdone
        exact if_pos hdone
  have hpresent := h.room.present hroom
  rw [hpending, List.append_nil] at hpresent
  exact hpresent

/-- **No text is lost to a joiner, and no join fails.**  In every interleaving of joins
of new joiners with different ids and of texts that meets the condition, every join
that has answered has answered `true`, and its caller is a subscriber; and when all
handlers have finished, every joiner has answered, and beside the notices of the joins
it has been handed every text of the room exactly once. -/
theorem handed_every_text (hdistinct : DistinctJoiners view tasks)
    (hnew : NewJoiners view r chat tasks) {schedule : List Nat}
    (hrun : Run (Guarded (Machine.Meets (RoomGuard r)) (roomThreads D view r).Step)
      (roomStart view r chat tasks) (schedule.map .step) p) :
    (∀ s flag, (s, flag) ∈ p.shared.answers → flag = true ∧
      ∃ ch, p.shared.channel r = some ch ∧ ch.subscribers.lookup (view s).clientId = some s) ∧
    (p.Quiet → ∀ s, RoomJob.join s ∈ tasks → (s, true) ∈ p.shared.answers ∧
      Beside (IsNotice view r) (roomTexts chat r ++ tasks.flatMap (·.data r))
        (Channel.handedTo s p.shared.deliveries)) := by
  have h := roomRunInv_run hdistinct hnew hrun
  refine ⟨?_, ?_⟩
  · intro s flag hanswer
    obtain ⟨hflag, thread, hthread, hjob, hsub⟩ := h.answers.answers s flag hanswer
    exact ⟨hflag, h.subscriber hthread hjob hsub⟩
  · intro hquiet s hs
    rw [← h.tasks_eq] at hs
    obtain ⟨thread, hthread, htask⟩ := List.mem_map.mp hs
    have hdone := h.sound.finished hthread (hquiet thread hthread)
    rw [htask] at hdone
    obtain ⟨hjob, -, hanswered, hsub⟩ := hdone
    obtain ⟨ch, hch, -, -, hperm⟩ :=
      (joinerInv_subscribed hsub).mp (h.room.joiner thread hthread s hjob)
    have hroom : p.shared.channel r ≠ none := by
      rw [hch]
      exact Option.some_ne_none _
    refine ⟨h.answers.answered thread hthread s hjob hanswered, ?_⟩
    have hhanded := (h.notices.handed.filter (·.recipient = s)).map
      (fun delivery (hd : IsNotice view r delivery.data) => hd)
    exact Beside.perm hhanded (hperm.trans (h.quiet_texts hquiet hroom))

end Runs

section Example

instance : DecidableEq (sqlDatabase memorySqlite).State :=
  inferInstanceAs (DecidableEq (Database memorySqlite))

/-- An empty table, and no rooms. -/
def emptyRooms : ChatState (sqlDatabase memorySqlite) :=
  ChatState.init (⟨true, memorySqlite.empty⟩ : Database memorySqlite)

/-- The connection `s` has the client id `s` and the login `u`. -/
def smallView : View := fun s => ⟨Int32.ofNat s, ascii "u"⟩

theorem newJoiners_emptyRooms (r : Identifier) (tasks : List RoomJob) :
    NewJoiners smallView r emptyRooms tasks := by
  intro s _ ch hch
  cases hch

/-- A text before the first join, and one between two joins. -/
theorem handed_every_text_two :
    let tasks : List RoomJob :=
      [.join 1, .join 2, .text (ascii "v") (ascii "early"), .text (ascii "v") (ascii "late")]
    let texts : List TextSendData :=
      [⟨5, ascii "v", ascii "early"⟩, ⟨5, ascii "v", ascii "late"⟩]
    ∃ (schedule : List Nat) (p : RoomPool (sqlDatabase memorySqlite)),
      Run (Guarded (Machine.Meets (RoomGuard 5))
          (roomThreads (sqlDatabase memorySqlite) smallView 5).Step)
        (roomStart smallView 5 emptyRooms tasks) (schedule.map .step) p ∧
      p.Quiet ∧
      ∀ s, RoomJob.join s ∈ tasks → (s, true) ∈ p.shared.answers ∧
        Beside (IsNotice smallView 5) texts (Channel.handedTo s p.shared.deliveries) := by
  intro tasks texts
  let schedule : List Nat :=
    [2, 2, 0, 0, 0, 0, 3, 1, 1, 0, 0, 3, 3, 0, 1, 1, 0, 0, 0, 1, 1, 1, 1, 3]
  have hend : ((schedule.map PoolEvent.step).foldlM
      ((roomThreads (sqlDatabase memorySqlite) smallView 5).applyGuarded (RoomGuard 5))
      (roomStart smallView 5 emptyRooms tasks)).map (fun p => decide p.Quiet) = some true := by
    decide +kernel
  obtain ⟨p, hp, hquiet⟩ := Option.map_eq_some_iff.mp hend
  have hrun := Machine.run_of_applyGuarded _ hp
  have hquiet : p.Quiet := of_decide_eq_true hquiet
  have hdistinct : DistinctJoiners smallView tasks := by decide
  exact ⟨schedule, p, hrun, hquiet,
    (handed_every_text hdistinct (newJoiners_emptyRooms 5 tasks) hrun).2 hquiet⟩

/-- Two joins both find no channel, and the second insertion fails; and a text between
the replay and the subscription of a join is lost to it. -/
theorem not_handed_every_text :
    (¬ ∀ (tasks : List RoomJob) (schedule : List Nat) (p : RoomPool (sqlDatabase memorySqlite)),
      DistinctJoiners smallView tasks → NewJoiners smallView 5 emptyRooms tasks →
      Run (roomThreads (sqlDatabase memorySqlite) smallView 5).Step
        (roomStart smallView 5 emptyRooms tasks) (schedule.map .step) p →
      ∀ s flag, (s, flag) ∈ p.shared.answers → flag = true) ∧
    ¬ ∀ (tasks : List RoomJob) (schedule : List Nat) (p : RoomPool (sqlDatabase memorySqlite)),
      DistinctJoiners smallView tasks → NewJoiners smallView 5 emptyRooms tasks →
      Run (roomThreads (sqlDatabase memorySqlite) smallView 5).Step
        (roomStart smallView 5 emptyRooms tasks) (schedule.map .step) p →
      p.Quiet → ∀ s, RoomJob.join s ∈ tasks →
        Beside (IsNotice smallView 5) (roomTexts emptyRooms 5 ++ tasks.flatMap (·.data 5))
          (Channel.handedTo s p.shared.deliveries) := by
  refine ⟨?_, ?_⟩
  · intro h
    let tasks : List RoomJob := [.join 1, .join 2]
    let schedule : List Nat := [0, 0, 0, 1, 1, 1, 0, 1, 1]
    have hend : ((schedule.map PoolEvent.step).foldlM
        (roomThreads (sqlDatabase memorySqlite) smallView 5).apply
        (roomStart smallView 5 emptyRooms tasks)).map (fun p => p.shared.answers) =
        some [(2, false)] := by
      decide +kernel
    obtain ⟨p, hp, hanswers⟩ := Option.map_eq_some_iff.mp hend
    have hrun := (Run.iff_foldlM.mpr hp).mono fun _ _ _ => Machine.step_of_apply _
    have hflag := h tasks schedule p (by decide) (newJoiners_emptyRooms 5 tasks) hrun 2 false
      (by rw [hanswers]; exact List.mem_singleton_self _)
    cases hflag
  · intro h
    let tasks : List RoomJob := [.join 1, .text (ascii "v") (ascii "hi")]
    let schedule : List Nat := [0, 0, 0, 0, 0, 1, 1, 1, 1, 0, 0, 0, 0, 0]
    have hend : ((schedule.map PoolEvent.step).foldlM
        (roomThreads (sqlDatabase memorySqlite) smallView 5).apply
        (roomStart smallView 5 emptyRooms tasks)).map
          (fun p => (decide p.Quiet, Channel.handedTo 1 p.shared.deliveries)) =
        some (true, [Channel.joinNotice (ascii "u") 5]) := by
      decide +kernel
    obtain ⟨p, hp, hfinal⟩ := Option.map_eq_some_iff.mp hend
    obtain ⟨hquiet, hhanded⟩ := Prod.mk.inj hfinal
    have hrun := (Run.iff_foldlM.mpr hp).mono fun _ _ _ => Machine.step_of_apply _
    obtain ⟨notices, -, hperm⟩ := h tasks schedule p (by decide) (newJoiners_emptyRooms 5 tasks)
      hrun (of_decide_eq_true hquiet) 1 (List.mem_cons_self ..)
    have hmem : (⟨5, ascii "v", ascii "hi"⟩ : TextSendData) ∈
        Channel.handedTo 1 p.shared.deliveries :=
      hperm.mem_iff.mpr (List.mem_append_left _ (List.mem_append_right _ (List.mem_singleton_self _)))
    rw [hhanded, List.mem_singleton] at hmem
    revert hmem
    decide

end Example

end AppChat
