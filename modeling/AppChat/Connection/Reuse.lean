/-
  `Connection.Reuse`: when a recycled connection is as good as a new one.

  `free_connection` resets the members by hand and keeps the queue and the buffer.  What
  the operations of the old socket do when they complete, they do to the new one.
-/
import AppChat.Connection.Recycling

set_option autoImplicit false

namespace AppChat.Connection

open Foundation Foundation.Mealy Storage Serialize Protocol

namespace ConnectionEvent

/-- The events that write the login: the log ins, and all that frees the connection. -/
def setsLogin : ConnectionEvent → Bool
  | handle ⟨.doAutorisation, _⟩ _ | handle ⟨.doRegistration, _⟩ _ => true
  | complete ⟨.readBody _, _, _⟩ => false
  | complete ⟨_, error, _⟩ => error
  | _ => false

/-- The events in which the login is looked at. -/
def showsLogin : ConnectionEvent → Bool
  | handle ⟨.doJoinRoom, .joinRoomRequest _⟩ _ => true
  | _ => false

/-- A body that is read is there as a whole. -/
def Whole : ConnectionEvent → Prop
  | complete ⟨.readBody header, _, data⟩ => data.length = header.length.toNat
  | _ => True

end ConnectionEvent

/-- The login is written before it is looked at. -/
def LoginFirst : List ConnectionEvent → Prop
  | [] => True
  | e :: events => e.setsLogin = true ∨ (e.showsLogin = false ∧ LoginFirst events)

namespace PooledConnection

/-- Nothing comes out of the recycled connection while the operations on its old socket
complete, and then it answers the events as a new connection does. -/
def Same (c : PooledConnection) (old : List Completion) (events : List ConnectionEvent) : Prop :=
  ((c.recycled.drained old).bind fun next =>
      (answers apply next.1 events).map fun rest => (next.2, rest)) =
    (answers apply fresh events).map fun rest => ([], rest)

/-- Nothing is left of the old client: the operations that still complete are writes that
succeed, and of the queue there is at most the message one of them has written. -/
structure Clean (c : PooledConnection) (old : List Completion) : Prop where
  written : ∀ completion ∈ old, completion.error = false ∧ completion.operation.isRead = false
  queue : c.sendMsgsQueue.length = old.countP (·.operation = .writeQueued)
  le_one : c.sendMsgsQueue.length ≤ 1

/-! ## The old operations complete -/

/-- A completion nothing comes out of. -/
theorem complete_silent {c c' : PooledConnection} {completion : Completion}
    (h : c.complete completion = some (c', [])) :
    completion.error = false ∧
      (completion.operation = .writeResponse ∧ c' = c ∨
        completion.operation = .writeQueued ∧ c.sendMsgsQueue.length = 1 ∧
          c' = { c with sendMsgsQueue := [] }) := by
  obtain ⟨operation, error, data⟩ := completion
  cases operation with
  | readHeader =>
      simp only [complete, freeConnection, asyncReadPbHeader] at h
      split at h
      · cases h
      · split at h
        · split at h
          · cases h
          · cases h
        · cases h
  | readBody header =>
      simp only [complete, asyncReadPbHeader, Option.some.injEq, Prod.mk.injEq] at h
      exact absurd h.2 (List.append_ne_nil_of_right_ne_nil _ (List.cons_ne_nil _ _))
  | writeQueued =>
      simp only [complete, freeConnection] at h
      split at h
      · cases h
      · rename_i herror
        rcases hqueue : c.sendMsgsQueue with _ | ⟨first, _ | ⟨second, rest⟩⟩
        · rw [hqueue] at h
          cases h
        · rw [hqueue] at h
          cases h
          exact ⟨Bool.eq_false_iff.mpr herror, Or.inr ⟨rfl, rfl, rfl⟩⟩
        · rw [hqueue] at h
          cases h
  | writeResponse =>
      simp only [complete, freeConnection] at h
      split at h
      · cases h
      · rename_i herror
        cases h
        exact ⟨Bool.eq_false_iff.mpr herror, Or.inl ⟨rfl, rfl⟩⟩

/-- Completions nothing comes out of are writes that succeed.  They leave all as it is, or
one of them takes the only message off the queue. -/
theorem drained_silent {c r : PooledConnection} {old : List Completion}
    (h : c.drained old = some (r, [])) :
    (∀ completion ∈ old, completion.error = false ∧ completion.operation.isRead = false) ∧
      (old.countP (·.operation = .writeQueued) = 0 ∧ r = c ∨
        old.countP (·.operation = .writeQueued) = 1 ∧ c.sendMsgsQueue.length = 1 ∧
          r = { c with sendMsgsQueue := [] }) := by
  induction old generalizing c with
  | nil =>
      cases h
      refine ⟨?_, Or.inl ⟨rfl, rfl⟩⟩
      intro completion hmem
      cases hmem
  | cons completion old ih =>
      rw [drained, Option.bind_eq_some_iff] at h
      obtain ⟨⟨c', acts⟩, hcomplete, hrest⟩ := h
      obtain ⟨⟨r', rest⟩, hdrained, hlast⟩ := Option.map_eq_some_iff.mp hrest
      obtain ⟨rfl, hacts⟩ := Prod.mk.inj hlast
      obtain ⟨rfl, rfl⟩ := List.append_eq_nil_iff.mp hacts
      obtain ⟨herror, hwrite⟩ := complete_silent hcomplete
      obtain ⟨hwritten, hqueue⟩ := ih hdrained
      rcases hwrite with ⟨hoperation, rfl⟩ | ⟨hoperation, hone, rfl⟩
      · refine ⟨List.forall_mem_cons.mpr ⟨⟨herror, by rw [hoperation]; rfl⟩, hwritten⟩, ?_⟩
        have hcount : (completion :: old).countP (·.operation = .writeQueued) =
            old.countP (·.operation = .writeQueued) := by
          rw [List.countP_cons_of_neg]
          rw [hoperation]
          decide
        rw [hcount]
        exact hqueue
      · refine ⟨List.forall_mem_cons.mpr ⟨⟨herror, by rw [hoperation]; rfl⟩, hwritten⟩, ?_⟩
        rcases hqueue with ⟨hzero, rfl⟩ | ⟨-, hnone, -⟩
        · refine Or.inr ⟨?_, hone, rfl⟩
          rw [List.countP_cons_of_pos (by rw [hoperation]; decide), hzero]
        · cases hnone

theorem drained_of_clean {c : PooledConnection} {old : List Completion} (h : c.Clean old) :
    c.drained old = some ({ c with sendMsgsQueue := [] }, []) := by
  induction old generalizing c with
  | nil =>
      have hnil : c.sendMsgsQueue = [] := List.eq_nil_of_length_eq_zero h.queue
      rw [drained, ← hnil]
  | cons completion old ih =>
      obtain ⟨operation, error, data⟩ := completion
      obtain ⟨⟨herror, hwrite⟩, hwritten⟩ := List.forall_mem_cons.mp h.written
      have herr : error = false := herror
      subst herr
      cases operation with
      | readHeader => cases hwrite
      | readBody header => cases hwrite
      | writeQueued =>
          have hcount := h.queue
          rw [List.countP_cons_of_pos (by simp)] at hcount
          have hle := h.le_one
          have hlength : c.sendMsgsQueue.length = 1 := by omega
          obtain ⟨message, hqueue⟩ := List.length_eq_one_iff.mp hlength
          have hrest : Clean { c with sendMsgsQueue := [] } old := by
            refine ⟨hwritten, ?_, Nat.zero_le _⟩
            show 0 = _
            omega
          have hcomplete : c.complete ⟨.writeQueued, false, data⟩ =
              some ({ c with sendMsgsQueue := [] }, []) := by
            simp only [complete, hqueue]
            rfl
          rw [drained, hcomplete, Option.bind_some, ih hrest]
          rfl
      | writeResponse =>
          have hcount := h.queue
          rw [List.countP_cons_of_neg (by simp)] at hcount
          have hcomplete : c.complete ⟨.writeResponse, false, data⟩ = some (c, []) := rfl
          rw [drained, hcomplete, Option.bind_some, ih ⟨hwritten, hcount, h.le_one⟩]
          rfl

/-! ## Two connections that differ in the login and the buffer -/

theorem addMsgSendQueue_members {c c' : PooledConnection} {binBuffer : Bytes} {acts : List Act}
    (h : c.addMsgSendQueue binBuffer = some (c', acts)) : c'.members = c.members := by
  simp only [addMsgSendQueue, sendingMsgsToClient] at h
  split at h
  · split at h
    · cases h
    · cases h
      rfl
  · cases h
    rfl

theorem complete_members {c c' : PooledConnection} {completion : Completion} {acts : List Act}
    (h : c.complete completion = some (c', acts))
    (hsets : ¬ (ConnectionEvent.complete completion).setsLogin = true) :
    c'.members = c.members := by
  obtain ⟨operation, error, data⟩ := completion
  cases operation with
  | readHeader =>
      have herror : error = false := Bool.eq_false_iff.mpr hsets
      subst herror
      simp only [complete, asyncReadPbHeader, Bool.false_eq_true, if_false] at h
      split at h
      · split at h
        · cases h
        · cases h
          rfl
      · cases h
        rfl
  | readBody header =>
      cases h
      rfl
  | writeQueued =>
      have herror : error = false := Bool.eq_false_iff.mpr hsets
      subst herror
      simp only [complete, Bool.false_eq_true, if_false] at h
      split at h
      · cases h
      · cases h
        rfl
      · simp only [sendingMsgsToClient] at h
        split at h
        · cases h
        · cases h
          rfl
  | writeResponse =>
      have herror : error = false := Bool.eq_false_iff.mpr hsets
      subst herror
      cases h
      rfl

/-- Only the events that set the login change it. -/
theorem apply_login {c c' : PooledConnection} {e : ConnectionEvent} {acts : List Act}
    (h : c.apply e = some (c', acts)) (hsets : ¬ e.setsLogin = true) :
    c'.members.login = c.members.login := by
  cases e with
  | complete completion =>
      simp only [apply] at h
      split at h
      · rw [complete_members h hsets]
      · cases h
  | handle task reply =>
      obtain ⟨handler, request⟩ := task
      cases handler with
      | doAutorisation => exact absurd rfl hsets
      | doRegistration => exact absurd rfl hsets
      | doJoinRoom =>
          cases request with
          | joinRoomRequest m =>
              cases h
              dsimp only
              split
              · rfl
              · rfl
          | _ =>
              cases h
              rfl
      | doTextMsg => cases request <;> cases h <;> rfl
  | sendResponse response =>
      cases h
      rfl
  | sendMsgToClient data => rw [addMsgSendQueue_members h]

/-- Apart from the buffer, and unless `named` from the login and the password, the
connections are the same.  There is at most one read, and a body that is being read fills
both buffers. -/
structure Alike (named : Bool) (r f : PooledConnection) : Prop where
  clientId : r.members.clientId = f.members.clientId
  roomId : r.members.roomId = f.members.roomId
  busy : r.members.busy = f.members.busy
  socketOpen : r.members.socketOpen = f.members.socketOpen
  names : named = true →
    r.members.login = f.members.login ∧ r.members.password = f.members.password
  queue : r.sendMsgsQueue = f.sendMsgsQueue
  pending : r.pending = f.pending
  oneRead : f.pending.countP Operation.isRead ≤ 1
  body : ∀ header, .readBody header ∈ f.pending →
    r.bufferMsg.length = header.length.toNat ∧ f.bufferMsg.length = header.length.toNat

namespace Alike

variable {named : Bool} {r f : PooledConnection}

theorem members_eq (h : Alike true r f) : r.members = f.members := by
  obtain ⟨hlogin, hpassword⟩ := h.names rfl
  obtain ⟨⟨_, _, _, _, _, _⟩, _, _, _⟩ := r
  obtain ⟨⟨_, _, _, _, _, _⟩, _, _, _⟩ := f
  have h₁ := h.clientId
  have h₂ := h.roomId
  have h₃ := h.busy
  have h₄ := h.socketOpen
  simp only at hlogin hpassword h₁ h₂ h₃ h₄
  subst hlogin hpassword h₁ h₂ h₃ h₄
  rfl

/-- New members for both. -/
theorem withMembers (h : Alike named r f) {named' : Bool} {m n : Members}
    (hclientId : m.clientId = n.clientId) (hroomId : m.roomId = n.roomId)
    (hbusy : m.busy = n.busy) (hopen : m.socketOpen = n.socketOpen)
    (hnames : named' = true → m.login = n.login ∧ m.password = n.password) :
    Alike named' { r with members := m } { f with members := n } :=
  ⟨hclientId, hroomId, hbusy, hopen, hnames, h.queue, h.pending, h.oneRead, h.body⟩

/-- A new queue for both. -/
theorem withQueue (h : Alike named r f) (queue : List Bytes) :
    Alike named { r with sendMsgsQueue := queue } { f with sendMsgsQueue := queue } :=
  ⟨h.clientId, h.roomId, h.busy, h.socketOpen, h.names, rfl, h.pending, h.oneRead, h.body⟩

/-- Another write for both. -/
theorem withWrite (h : Alike named r f) {operation : Operation} (hwrite : operation.isRead = false) :
    Alike named { r with pending := operation :: r.pending }
      { f with pending := operation :: f.pending } := by
  refine ⟨h.clientId, h.roomId, h.busy, h.socketOpen, h.names, h.queue, ?_, ?_, ?_⟩
  · exact congrArg (operation :: ·) h.pending
  · rw [List.countP_cons_of_neg (by rw [hwrite]; decide)]
    exact h.oneRead
  · intro header hmem
    rcases List.mem_cons.mp hmem with heq | hmem
    · rw [← heq] at hwrite
      cases hwrite
    · exact h.body header hmem

/-- An operation has completed for both. -/
theorem erase (h : Alike named r f) (operation : Operation) :
    Alike named { r with pending := r.pending.erase operation }
      { f with pending := f.pending.erase operation } := by
  refine ⟨h.clientId, h.roomId, h.busy, h.socketOpen, h.names, h.queue, ?_, ?_, ?_⟩
  · exact congrArg (List.erase · operation) h.pending
  · exact le_trans (List.Sublist.countP_le (List.erase_sublist)) h.oneRead
  · intro header hmem
    exact h.body header (List.mem_of_mem_erase hmem)

/-- When a read has completed, no read is left. -/
theorem noRead (h : Alike named r f) {operation : Operation} (hread : operation.isRead = true)
    (hmem : operation ∈ f.pending) :
    ∀ left ∈ f.pending.erase operation, left.isRead = false := by
  have hcount := (List.perm_cons_erase hmem).countP_eq Operation.isRead
  rw [List.countP_cons_of_pos hread] at hcount
  have hone := h.oneRead
  have hzero : (f.pending.erase operation).countP Operation.isRead = 0 := by omega
  intro left hleft
  exact Bool.eq_false_iff.mpr (List.countP_eq_zero.mp hzero left hleft)

/-- The next read for both. -/
theorem withRead (h : Alike named r f) (hnone : ∀ left ∈ f.pending, left.isRead = false)
    {operation : Operation} {rbuffer fbuffer : Bytes}
    (hbody : ∀ header, operation = .readBody header →
      rbuffer.length = header.length.toNat ∧ fbuffer.length = header.length.toNat) :
    Alike named { r with bufferMsg := rbuffer, pending := operation :: r.pending }
      { f with bufferMsg := fbuffer, pending := operation :: f.pending } := by
  refine ⟨h.clientId, h.roomId, h.busy, h.socketOpen, h.names, h.queue, ?_, ?_, ?_⟩
  · exact congrArg (operation :: ·) h.pending
  · have hzero : f.pending.countP Operation.isRead = 0 := by
      refine List.countP_eq_zero.mpr ?_
      intro left hleft
      rw [hnone left hleft]
      decide
    show List.countP Operation.isRead (operation :: f.pending) ≤ 1
    rw [List.countP_cons, hzero]
    split
    · exact le_refl 1
    · exact Nat.zero_le 1
  · intro header hmem
    rcases List.mem_cons.mp hmem with heq | hmem
    · exact hbody header heq.symm
    · cases hnone _ hmem

/-! ### What each function does to both -/

/-- Whether a resize throws does not depend on the buffer. -/
theorem resize_cases (rbuffer fbuffer : Bytes) (size : Nat) :
    (resize rbuffer size = none ∧ resize fbuffer size = none) ∨
      ∃ r' f', resize rbuffer size = some r' ∧ resize fbuffer size = some f' ∧
        r'.length = size ∧ f'.length = size := by
  by_cases hsize : size ≤ maxSize
  · obtain ⟨r', hr⟩ := (@exists_resize_iff rbuffer size).mpr hsize
    obtain ⟨f', hf⟩ := (@exists_resize_iff fbuffer size).mpr hsize
    exact Or.inr ⟨r', f', hr, hf, (length_resize hr).1, (length_resize hf).1⟩
  · exact Or.inl ⟨if_neg hsize, if_neg hsize⟩

theorem freeConnection (h : Alike named r f) :
    Alike true r.freeConnection.1 f.freeConnection.1 ∧ r.freeConnection.2 = f.freeConnection.2 := by
  refine ⟨h.withMembers rfl rfl rfl rfl fun _ => ⟨rfl, rfl⟩, ?_⟩
  simp only [PooledConnection.freeConnection, h.clientId, h.socketOpen]

theorem asyncReadPbHeader (h : Alike named r f) (hnone : ∀ left ∈ f.pending, left.isRead = false)
    (rbuffer fbuffer : Bytes) :
    Alike named { r with bufferMsg := rbuffer }.asyncReadPbHeader.1
        { f with bufferMsg := fbuffer }.asyncReadPbHeader.1 ∧
      { r with bufferMsg := rbuffer }.asyncReadPbHeader.2 =
        { f with bufferMsg := fbuffer }.asyncReadPbHeader.2 := by
  refine ⟨h.withRead hnone ?_, ?_⟩
  · intro header heq
    cases heq
  · simp only [PooledConnection.asyncReadPbHeader, h.socketOpen]

theorem sendingMsgsToClient (h : Alike named r f) :
    SameAnswer (Alike named) r.sendingMsgsToClient f.sendingMsgsToClient := by
  rw [PooledConnection.sendingMsgsToClient, PooledConnection.sendingMsgsToClient, h.queue,
    h.socketOpen]
  have hwrite : Operation.writeQueued.isRead = false := rfl
  rcases f.sendMsgsQueue with _ | ⟨buffer, rest⟩
  · exact .none
  · exact .some ⟨(h.withQueue (buffer :: rest)).withWrite hwrite, rfl⟩

theorem addMsgSendQueue (h : Alike named r f) (binBuffer : Bytes) :
    SameAnswer (Alike named) (r.addMsgSendQueue binBuffer) (f.addMsgSendQueue binBuffer) := by
  have hpushed := h.withQueue (f.sendMsgsQueue ++ [binBuffer])
  simp only [PooledConnection.addMsgSendQueue, h.queue]
  split
  · exact hpushed.sendingMsgsToClient
  · exact .some ⟨hpushed, rfl⟩

/-- A completion.  The operation has been taken out of the pending ones, so after a read
there is no other. -/
theorem complete (h : Alike named r f) {operation : Operation} {error : Bool} {data : Bytes}
    (hnone : operation.isRead = true → ∀ left ∈ f.pending, left.isRead = false)
    (hbody : ∀ header, operation = .readBody header →
      r.bufferMsg.length = data.length ∧ f.bufferMsg.length = data.length) :
    SameAnswer (Alike (named || (ConnectionEvent.complete ⟨operation, error, data⟩).setsLogin))
      (r.complete ⟨operation, error, data⟩) (f.complete ⟨operation, error, data⟩) := by
  have hkept : Alike (named || false) r f := by
    rw [Bool.or_false]
    exact h
  have hfreed : Alike (named || true) r.freeConnection.1 f.freeConnection.1 := by
    rw [Bool.or_true]
    exact h.freeConnection.1
  cases operation with
  | readHeader =>
      simp only [PooledConnection.complete]
      cases error with
      | true => exact .some ⟨hfreed, h.freeConnection.2⟩
      | false =>
          simp only [Bool.false_eq_true, if_false]
          split
          · rcases resize_cases r.bufferMsg f.bufferMsg (Header.parseFromArray data).1.length.toNat
              with ⟨hr, hf⟩ | ⟨rbuffer, fbuffer, hr, hf, hlength⟩
            · rw [hr, hf]
              exact .none
            · rw [hr, hf, h.socketOpen]
              refine .some ⟨hkept.withRead (hnone rfl) ?_, rfl⟩
              intro header heq
              cases heq
              exact hlength
          · obtain ⟨hnext, hacts⟩ :=
              hkept.asyncReadPbHeader (hnone rfl) r.bufferMsg f.bufferMsg
            exact .some ⟨hnext, hacts⟩
  | readBody header =>
      obtain ⟨hrlength, hflength⟩ := hbody header rfl
      simp only [PooledConnection.complete, List.drop_eq_nil_of_le (le_of_eq hrlength),
        List.drop_eq_nil_of_le (le_of_eq hflength), List.append_nil]
      obtain ⟨hnext, hacts⟩ := hkept.asyncReadPbHeader (hnone rfl) data data
      exact .some ⟨hnext, congrArg (List.map Act.post (processMsg header data) ++ ·) hacts⟩
  | writeQueued =>
      simp only [PooledConnection.complete]
      cases error with
      | true => exact .some ⟨hfreed, h.freeConnection.2⟩
      | false =>
          simp only [Bool.false_eq_true, if_false, h.queue]
          rcases f.sendMsgsQueue with _ | ⟨first, _ | ⟨second, rest⟩⟩
          · exact .none
          · exact .some ⟨hkept.withQueue [], rfl⟩
          · exact (hkept.withQueue (second :: rest)).sendingMsgsToClient
  | writeResponse =>
      simp only [PooledConnection.complete]
      cases error with
      | true => exact .some ⟨hfreed, h.freeConnection.2⟩
      | false => exact .some ⟨hkept, rfl⟩

theorem exists_of_showsLogin {e : ConnectionEvent} (h : e.showsLogin = true) :
    ∃ m reply, e = .handle ⟨.doJoinRoom, .joinRoomRequest m⟩ reply := by
  cases e with
  | complete completion => cases h
  | handle task reply =>
      obtain ⟨handler, request⟩ := task
      cases handler with
      | doJoinRoom =>
          cases request with
          | joinRoomRequest m => exact ⟨m, reply, rfl⟩
          | _ => cases h
      | _ => cases h
  | sendResponse response => cases h
  | sendMsgToClient data => cases h

/-- A handler.  A join asks for the login. -/
theorem handle (h : Alike named r f) {task : Task} {reply : Reply}
    (hnamed : named = true ∨ (ConnectionEvent.handle task reply).showsLogin = false) :
    SameAnswer (Alike (named || (ConnectionEvent.handle task reply).setsLogin))
      (some (r.handle task reply)) (some (f.handle task reply)) := by
  have hkept : Alike (named || false) r f := by
    rw [Bool.or_false]
    exact h
  have hfreed : SameAnswer (Alike (named || true)) (some r.freeConnection)
      (some f.freeConnection) := by
    rw [Bool.or_true]
    exact .some h.freeConnection
  obtain ⟨handler, request⟩ := task
  cases handler with
  | doAutorisation =>
      cases request with
      | inputRequest m =>
          exact .some ⟨h.withMembers rfl h.roomId h.busy h.socketOpen fun _ => ⟨rfl, rfl⟩, rfl⟩
      | _ => exact hfreed
  | doRegistration =>
      cases request with
      | registerRequest m =>
          simp only [PooledConnection.handle]
          split
          · exact .some ⟨h.withMembers rfl h.roomId h.busy h.socketOpen fun _ => ⟨rfl, rfl⟩, rfl⟩
          · exact .some ⟨h.withMembers rfl h.roomId h.busy h.socketOpen fun _ => ⟨rfl, rfl⟩, rfl⟩
      | _ => exact hfreed
  | doJoinRoom =>
      cases request with
      | joinRoomRequest m =>
          rcases hnamed with rfl | hshows
          · have hmembers := h.members_eq
            simp only [PooledConnection.handle, hmembers]
            exact .some ⟨h.withMembers rfl rfl rfl rfl fun _ => ⟨rfl, rfl⟩, rfl⟩
          · cases hshows
      | _ => exact .some ⟨hkept, rfl⟩
  | doTextMsg =>
      cases request with
      | textRequest m => exact .some ⟨hkept, rfl⟩
      | _ => exact .some ⟨hkept, rfl⟩

/-- One event. -/
theorem apply (h : Alike named r f) {e : ConnectionEvent} (hwhole : e.Whole)
    (hnamed : named = true ∨ e.showsLogin = false) :
    SameAnswer (Alike (named || e.setsLogin)) (r.apply e) (f.apply e) := by
  cases e with
  | complete completion =>
      obtain ⟨operation, error, data⟩ := completion
      have hpending : operation ∈ r.pending ↔ operation ∈ f.pending := by rw [h.pending]
      simp only [PooledConnection.apply, hpending]
      split
      · rename_i hmem
        refine (h.erase operation).complete (fun hread => h.noRead hread hmem) ?_
        rintro header rfl
        have hlength : data.length = header.length.toNat := hwhole
        rw [hlength]
        exact h.body header hmem
      · exact .none
  | handle task reply => exact h.handle hnamed
  | sendResponse response =>
      have hwrite : Operation.writeResponse.isRead = false := rfl
      simp only [PooledConnection.apply, h.socketOpen, ConnectionEvent.setsLogin, Bool.or_false]
      exact .some ⟨h.withWrite hwrite, rfl⟩
  | sendMsgToClient data =>
      simp only [PooledConnection.apply, ConnectionEvent.setsLogin, Bool.or_false]
      exact h.addMsgSendQueue _

/-! ### Whole runs -/

theorem showsLogin_of_setsLogin {e : ConnectionEvent} (h : e.setsLogin = true) :
    e.showsLogin = false := by
  cases e with
  | complete completion => rfl
  | handle task reply =>
      obtain ⟨handler, request⟩ := task
      cases handler with
      | doJoinRoom => cases h
      | _ => rfl
  | sendResponse response => rfl
  | sendMsgToClient data => rfl

theorem answers_eq_of_named (h : Alike true r f) {events : List ConnectionEvent}
    (hwhole : ∀ e ∈ events, e.Whole) :
    answers PooledConnection.apply r events = answers PooledConnection.apply f events :=
  answers_eq_of_alike (fun _ _ _ halike hw => halike.apply hw (Or.inl rfl)) hwhole h

/-- When the login is written before it is looked at, the answers are the same. -/
theorem answers_eq (h : Alike false r f) {events : List ConnectionEvent}
    (hwhole : ∀ e ∈ events, e.Whole) (hlogin : LoginFirst events) :
    answers PooledConnection.apply r events = answers PooledConnection.apply f events := by
  induction events generalizing r f with
  | nil => rfl
  | cons e events ih =>
      obtain ⟨he, hrest⟩ := List.forall_mem_cons.mp hwhole
      have hstep (hshows : e.showsLogin = false) := h.apply he (Or.inr hshows)
      rcases hsets : e.setsLogin with _ | _
      · obtain ⟨hshows, hlater⟩ := hlogin.resolve_left (by rw [hsets]; decide)
        have hanswer := hstep hshows
        rw [hsets] at hanswer
        exact answers_cons_eq hanswer fun s t halike => ih halike hrest hlater
      · have hanswer := hstep (showsLogin_of_setsLogin hsets)
        rw [hsets] at hanswer
        exact answers_cons_eq hanswer fun s t halike => halike.answers_eq_of_named hrest

/-- When the login is looked at while it differs, the answers differ. -/
theorem answers_ne (h : Alike false r f) (hdiffer : r.members.login ≠ f.members.login)
    {events : List ConnectionEvent} (hwhole : ∀ e ∈ events, e.Whole)
    (hlogin : ¬ LoginFirst events)
    (hpossible : (answers PooledConnection.apply f events).isSome = true) :
    answers PooledConnection.apply r events ≠ answers PooledConnection.apply f events := by
  induction events generalizing r f with
  | nil => exact absurd trivial hlogin
  | cons e events ih =>
      obtain ⟨he, hrest⟩ := List.forall_mem_cons.mp hwhole
      obtain ⟨hsets, hlater⟩ := not_or.mp hlogin
      obtain ⟨f', acts, hf, hafter⟩ := exists_of_answers_cons hpossible
      intro hsame
      rcases hshows : e.showsLogin with _ | _
      · have hanswer := h.apply he (Or.inr hshows)
        rw [hf] at hanswer
        obtain ⟨r', hr, halike⟩ := hanswer.exists_left
        rw [Bool.eq_false_iff.mpr hsets] at halike
        have hkept : r'.members.login ≠ f'.members.login := by
          rw [apply_login hr hsets, apply_login hf hsets]
          exact hdiffer
        have hnotFirst : ¬ LoginFirst events := fun hfirst => hlater ⟨hshows, hfirst⟩
        have hrestSame := (eq_of_answers_cons_eq hr hf hafter hsame).2
        exact ih halike hkept hrest hnotFirst hafter hrestSame
      · obtain ⟨m, reply, rfl⟩ := exists_of_showsLogin hshows
        cases hf
        have hacts := (@eq_of_answers_cons_eq _ _ _ PooledConnection.apply _ _ _ _ _ _ _ _
          rfl rfl hafter hsame).1
        have hjoin : Act.join r.members.clientId r.members.login m.roomId =
            .join f.members.clientId f.members.login m.roomId := (List.cons.inj hacts).1
        exact hdiffer (Act.join.inj hjoin).2.1

end Alike

/-! ## The theorem -/

/-- The recycled connection, after the old operations have left nothing. -/
theorem alike_recycled (c : PooledConnection) :
    Alike false { c.recycled with sendMsgsQueue := [] } fresh := by
  refine ⟨rfl, rfl, rfl, rfl, ?_, rfl, rfl, by decide, ?_⟩
  · intro hnamed
    cases hnamed
  · intro header hmem
    rcases List.mem_cons.mp hmem with heq | hnil
    · cases heq
    · cases hnil

/-- On a clean state the two give the same answers, or not, from then on. -/
theorem same_iff_of_clean {c : PooledConnection} {old : List Completion} (h : c.Clean old)
    (events : List ConnectionEvent) :
    c.Same old events ↔
      answers apply { c.recycled with sendMsgsQueue := [] } events =
        answers apply fresh events := by
  have hclean : c.recycled.Clean old := ⟨h.written, h.queue, h.le_one⟩
  have hinjective : Function.Injective fun rest : List (List Act) => (([] : List Act), rest) :=
    fun _ _ heq => (Prod.mk.inj heq).2
  rw [Same, drained_of_clean hclean, Option.bind_some]
  exact (Option.map_injective hinjective).eq_iff

theorem silent_of_same {c : PooledConnection} {old : List Completion}
    {events : List ConnectionEvent} (h : c.Same old events)
    (hpossible : (answers apply fresh events).isSome = true) :
    ∃ r, c.recycled.drained old = some (r, []) := by
  obtain ⟨rest, hrest⟩ := Option.isSome_iff_exists.mp hpossible
  rw [Same, hrest, Option.map_some, Option.bind_eq_some_iff] at h
  obtain ⟨⟨r, acts⟩, hdrained, hanswers⟩ := h
  obtain ⟨rest', -, heq⟩ := Option.map_eq_some_iff.mp hanswers
  obtain ⟨rfl, -⟩ := Prod.mk.inj heq
  exact ⟨r, hdrained⟩

/-- With a message left in the queue, the first message of the new client is not written. -/
theorem not_same_of_queue {c : PooledConnection} {old : List Completion}
    (hqueue : c.sendMsgsQueue ≠ []) (hdrained : c.recycled.drained old = some (c.recycled, []))
    (data : TextSendData) : ¬ c.Same old [.sendMsgToClient data] := by
  obtain ⟨first, rest, hcons⟩ := List.exists_cons_of_ne_nil hqueue
  have hrecycled : answers apply c.recycled [.sendMsgToClient data] = some [[]] := by
    have hleft : c.recycled.sendMsgsQueue = first :: rest := hcons
    rw [answers_cons]
    simp only [apply, addMsgSendQueue, hleft]
    rfl
  rw [Same, hdrained, Option.bind_some, hrecycled]
  intro h
  cases h

/-- **When a recycled connection is as good as a new one.**  Exactly when nothing is left
of the old client, the sequences of events on which the recycled connection answers as a
new one does are those in which the login is written before it is looked at. -/
theorem same_iff_loginFirst_iff_clean (c : PooledConnection) (old : List Completion) :
    (∀ events : List ConnectionEvent, (∀ e ∈ events, e.Whole) →
      (answers apply fresh events).isSome = true → (c.Same old events ↔ LoginFirst events)) ↔
      c.Clean old := by
  constructor
  · intro h
    obtain ⟨r, hdrained⟩ := silent_of_same ((h [] (List.forall_mem_nil _) rfl).mpr trivial) rfl
    obtain ⟨hwritten, hqueue⟩ := drained_silent hdrained
    rcases hqueue with ⟨hzero, rfl⟩ | ⟨hone, hlength, -⟩
    · have hempty : c.sendMsgsQueue = [] := by
        by_contra hne
        have hwhole : ∀ e ∈ [ConnectionEvent.sendMsgToClient ⟨0, [], []⟩], e.Whole := by
          intro e he
          rw [List.mem_singleton] at he
          subst he
          trivial
        have hsame := (h _ hwhole rfl).mpr (Or.inr ⟨rfl, trivial⟩)
        exact not_same_of_queue hne hdrained _ hsame
      refine ⟨hwritten, ?_, ?_⟩
      · rw [hempty, hzero]
        rfl
      · rw [hempty]
        exact Nat.zero_le 1
    · have hlength' : c.sendMsgsQueue.length = 1 := hlength
      exact ⟨hwritten, hlength'.trans hone.symm, le_of_eq hlength'⟩
  · intro hclean events hwhole hpossible
    rw [same_iff_of_clean hclean]
    refine ⟨?_, (alike_recycled c).answers_eq hwhole⟩
    intro hsame
    by_contra hlogin
    have hdiffer : ({ c.recycled with sendMsgsQueue := [] } : PooledConnection).members.login ≠
        fresh.members.login := by
      have hunused : ascii "unused" ≠ [] := by decide
      exact hunused
    exact (alike_recycled c).answers_ne hdiffer hwhole hlogin hpossible hsame

/-- A queued write fails and then the read: the next client's first message stays in the
queue behind the old one. -/
theorem not_same_failed_write :
    ¬ ∀ (before : List ConnectionEvent) (c : PooledConnection) (acts : List (List Act))
      (old : List Completion) (events : List ConnectionEvent),
      run apply fresh before = some (c, acts) → (old.map Completion.operation).Perm c.pending →
        (answers apply fresh events).isSome = true → c.Same old events := by
  intro h
  let hi : TextSendData := ⟨5, ascii "u", ascii "hi"⟩
  let before : List ConnectionEvent :=
    [.sendMsgToClient hi, .complete ⟨.writeQueued, true, []⟩, .complete ⟨.readHeader, true, []⟩]
  let c : PooledConnection :=
    { members := freedMembers
      bufferMsg := []
      sendMsgsQueue := [(FactoryMessage.textResponse hi.login hi.roomId hi.text).frame]
      pending := [] }
  have hrun : ∃ acts, run apply fresh before = some (c, acts) := ⟨_, rfl⟩
  obtain ⟨acts, hacts⟩ := hrun
  have hqueue : c.sendMsgsQueue ≠ [] := List.cons_ne_nil _ _
  exact not_same_of_queue hqueue rfl hi (h before c acts [] _ hacts (List.Perm.refl []) rfl)

end PooledConnection

end AppChat.Connection
