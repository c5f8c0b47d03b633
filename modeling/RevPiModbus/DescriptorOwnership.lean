import RevPiModbus.Lib.Ledger
import RevPiModbus.TcpSlaveLoop

/-!
# The descriptors of a TCP slave

`startTcpSlaveThread` from its start to its end, with the loop over the connections in the middle,
the socket that the Modbus context has been given last, and the cleanup handler. The handler lets
`modbus_close` close the socket of the context, and then closes all sockets of the set.

* `TcpSlavePoint`, `TcpSlave`, `tcpSlaveStep`: a run of the thread, with a ledger of the descriptors
  that it owns; the thread may be cancelled at each cancellation point;
* `cleanupTcpSlaveThread`;
* `DescriptorsOwned`: no number is closed that is not owned, and at the end nothing is open;
* `descriptorsOwned_iff`: the runs throughout which that holds.
-/

namespace RevPiModbus

open Transition

/-! ## The thread -/

/-- Before there is a server socket. -/
inductive SetupPoint
  | mappingNew
  /-- `syslog`, and the exit. -/
  | mappingFailed
  /-- `modbus_new_tcp_pi`. -/
  | newContext
  | contextFailed
  /-- `modbus_tcp_pi_listen`. -/
  | listen
  /-- `syslog`, and five seconds. -/
  | listenFailed
  deriving DecidableEq, Repr

/-- The loop over the connections. -/
inductive ServePoint
  /-- At `select` or in the scan. -/
  | scan
  /-- `syslog` after `accept`. -/
  | accepted
  /-- `process_modbus_request`, with `syslog` before it and, if it fails, after it, and `close`. -/
  | request
  /-- `syslog` after a failed `select`. -/
  | selectFailed
  /-- `close` of the server socket then. -/
  | closeServer
  deriving DecidableEq, Repr

/-- What the thread is about to do. -/
inductive TcpSlavePoint
  | setup (p : SetupPoint)
  /-- `syslog` before the server socket is added to the set. -/
  | listening (serverSocket : ℕ)
  | serve (p : ServePoint) (s : SelectLoop)
  /-- `pthread_exit` after a failed `select`. -/
  | exit (s : SelectLoop)
  | ended

/-- The reference set at a point. -/
def TcpSlavePoint.refset : TcpSlavePoint → Finset ℤ
  | .serve _ s | .exit s => s.refset
  | _ => ∅

/-- Where a cancelled thread ends: in `syslog`, in calls that wait, and in `close` before it has
taken effect. -/
def TcpSlavePoint.IsCancellationPoint : TcpSlavePoint → Prop
  | .setup p => p ≠ .mappingNew ∧ p ≠ .newContext
  | .listening _ => True
  | .serve .scan s => s.point = .select ∨
      s.point = .scan s.serverSocket ∧ s.serverSocket ≤ s.fdmax ∧ s.serverSocket ∈ s.rdset
  | .serve _ _ => True
  | .exit _ | .ended => False

instance (p : TcpSlavePoint) : Decidable p.IsCancellationPoint := by
  unfold TcpSlavePoint.IsCancellationPoint
  split <;> infer_instance

/-- A thread. `ctxSocket` is the socket of its context, -1 also as long as it has none;
`descriptors` holds those that the thread owns. -/
structure TcpSlave where
  point : TcpSlavePoint
  ctxSocket : ℤ
  descriptors : Ledger ℤ

/-- The thread before its first call. -/
def TcpSlave.start : TcpSlave := ⟨.setup .mappingNew, -1, .empty⟩

/-- The descriptors of a set, in the order in which the cleanup handler finds them. -/
def fdList (refset : Finset ℤ) : List ℤ :=
  ((List.range fdSetSize.toNat).map Int.ofNat).filter (· ∈ refset)

/-- The descriptors that `cleanupTcpSlaveThread` closes: in `modbus_close`, and in its loop. -/
def cleanupTcpSlaveThread (ctxSocket : ℤ) (refset : Finset ℤ) : List ℤ :=
  (if ctxSocket ≠ -1 then [ctxSocket] else []) ++ fdList refset

/-- The end of the thread, by `pthread_exit` or by its cancellation. -/
def TcpSlave.exit (s : TcpSlave) : TcpSlave where
  point := .ended
  ctxSocket := -1
  descriptors := s.descriptors.releaseAll (cleanupTcpSlaveThread s.ctxSocket s.point.refset)

/-- The calls of the thread, with what they return. -/
inductive TcpSlaveCall
  | mappingNew (created : Bool)
  | newTcpPi (created : Bool)
  | listen (ret : Option ℕ)
  | syslog
  | setSocket
  /-- A step of the loop. -/
  | select (l : SelectLabel)
  | closeServer
  | pthreadExit

/-- The client that is ready at the place of the scan. -/
def SelectLoop.readyClient (s : SelectLoop) : Option ℤ :=
  match s.point with
  | .scan masterSocket =>
    if masterSocket ≤ s.fdmax ∧ masterSocket ∈ s.rdset ∧ masterSocket ≠ s.serverSocket then
      some masterSocket
    else none
  | _ => none

/-- One call; it is `none` where the thread does not make it. -/
def callStep (config : TTcpConfig) (s : TcpSlave) (c : TcpSlaveCall) : Option TcpSlave :=
  match s.point, c with
  | .setup .mappingNew, .mappingNew created =>
    some { s with point := .setup (if created then .newContext else .mappingFailed) }
  | .setup .mappingFailed, .syslog => some s.exit
  | .setup .newContext, .newTcpPi created =>
    some { s with point := .setup (if created then .listen else .contextFailed) }
  | .setup .contextFailed, .syslog => some s.exit
  | .setup .listen, .listen none => some { s with point := .setup .listenFailed }
  | .setup .listen, .listen (some serverSocket) =>
    if (serverSocket : ℤ) < fdSetSize then
      some { s with
        point := .listening serverSocket
        descriptors := s.descriptors.acquire serverSocket }
    else none
  | .setup .listenFailed, .syslog => some { s with point := .setup .listen }
  | .listening serverSocket, .syslog =>
    some { s with point := .serve .scan (.start config serverSocket) }
  | .serve .scan loop, .select .selectFails =>
    if loop.point = .select then some { s with point := .serve .selectFailed loop } else none
  | .serve .scan _, .select (.request _) => none -- only after `modbus_set_socket`
  | .serve .scan loop, .select (.accept newfd) => do
    let loop' ← selectStep loop (.accept newfd)
    return { s with
      point := .serve .accepted loop'
      descriptors := newfd.elim s.descriptors s.descriptors.acquire }
  | .serve .scan loop, .select l => do
    let loop' ← selectStep loop l
    return { s with point := .serve .scan loop' }
  | .serve .scan loop, .setSocket => do
    let masterSocket ← loop.readyClient
    return { s with point := .serve .request loop, ctxSocket := masterSocket }
  | .serve .accepted loop, .syslog => some { s with point := .serve .scan loop }
  | .serve .request loop, .select (.request ret) => do
    let masterSocket ← loop.readyClient
    let loop' ← selectStep loop (.request ret)
    return { s with
      point := .serve .scan loop'
      descriptors := if ret < 0 then s.descriptors.release masterSocket else s.descriptors }
  | .serve .selectFailed loop, .syslog => some { s with point := .serve .closeServer loop }
  | .serve .closeServer loop, .closeServer =>
    some { s with
      point := .exit loop
      descriptors := s.descriptors.release loop.serverSocket }
  | .exit _, .pthreadExit => some s.exit
  | _, _ => none

/-- A call of the thread, or its cancellation. -/
inductive TcpSlaveLabel
  | call (c : TcpSlaveCall)
  | cancel

/-- One step. -/
def tcpSlaveStep (config : TTcpConfig) (s : TcpSlave) : TcpSlaveLabel → Option TcpSlave
  | .call c => callStep config s c
  | .cancel => if s.point.IsCancellationPoint then some s.exit else none

/-- No number is closed that the thread does not own, and when it has ended all its descriptors are
closed. -/
def DescriptorsOwned (s : TcpSlave) : Prop :=
  s.descriptors.Clean ∧ (s.point = .ended → s.descriptors.held = ∅)

/-! ## The cleanup -/

variable {refset : Finset ℤ} {descriptors : Ledger ℤ} {ctxSocket d : ℤ}

@[simp] theorem mem_fdList : d ∈ fdList refset ↔ (0 ≤ d ∧ d < fdSetSize) ∧ d ∈ refset := by
  simp only [fdList, List.mem_filter, List.mem_map, List.mem_range, decide_eq_true_eq]
  refine and_congr_left fun _ => ⟨?_, fun h => ⟨d.toNat, ?_, ?_⟩⟩
  · rintro ⟨i, hi, rfl⟩
    show 0 ≤ (i : ℤ) ∧ (i : ℤ) < fdSetSize
    omega
  · omega
  · exact Int.toNat_of_nonneg h.1

theorem fdList_nodup (refset : Finset ℤ) : (fdList refset).Nodup :=
  (List.nodup_range.map Int.ofNat_injective).filter _

theorem fdList_toFinset (h : ∀ d ∈ refset, 0 ≤ d ∧ d < fdSetSize) :
    (fdList refset).toFinset = refset := by
  ext d
  rw [List.mem_toFinset, mem_fdList]
  exact and_iff_right_of_imp (h d)

/-- Where the thread owns the sockets of its set, the cleanup is right only as long as the context
has been given none of them: it would be closed twice, or it is not open any more. -/
theorem cleanup_settled_iff (hclean : descriptors.Clean) (hheld : descriptors.held = refset)
    (hbound : ∀ d ∈ refset, 0 ≤ d ∧ d < fdSetSize) :
    (descriptors.releaseAll (cleanupTcpSlaveThread ctxSocket refset)).Settled ↔ ctxSocket = -1 := by
  rw [Ledger.releaseAll_settled, hheld, cleanupTcpSlaveThread]
  by_cases hsocket : ctxSocket = -1
  · rw [if_neg (not_not.mpr hsocket), List.nil_append]
    exact iff_of_true ⟨hclean, fdList_nodup refset, fdList_toFinset hbound⟩ hsocket
  · rw [if_pos hsocket, List.singleton_append]
    refine iff_of_false ?_ hsocket
    rintro ⟨-, hnodup, heq⟩
    have hmem : ctxSocket ∈ refset := by
      rw [← heq]
      exact List.mem_toFinset.mpr List.mem_cons_self
    exact (List.nodup_cons.mp hnodup).1 (mem_fdList.mpr ⟨hbound _ hmem, hmem⟩)

/-- A cleanup that misses an owned descriptor, or closes one that is not owned, is not right. -/
theorem not_cleanup_settled (hd : ¬ (d ∈ cleanupTcpSlaveThread ctxSocket refset ↔
    d ∈ descriptors.held)) :
    ¬ (descriptors.releaseAll (cleanupTcpSlaveThread ctxSocket refset)).Settled := by
  intro hsettled
  obtain ⟨-, -, heq⟩ := Ledger.releaseAll_settled.mp hsettled
  refine hd ?_
  rw [← heq, List.mem_toFinset]

/-! ## The invariant -/

/-- While it serves, the thread owns the sockets of its set. -/
structure ServeInv (descriptors : Ledger ℤ) (loop : SelectLoop) : Prop where
  select : ∃ serverSocket : ℕ, (serverSocket : ℤ) < fdSetSize ∧ SelectInv serverSocket loop
  running : loop.point ≠ .exited
  clean : descriptors.Clean
  held : descriptors.held = loop.refset

/-- What the thread owns at each point. -/
def TcpSlaveInv (s : TcpSlave) : Prop :=
  match s.point with
  | .setup _ => s.descriptors = .empty ∧ s.ctxSocket = -1
  | .listening serverSocket =>
    s.descriptors = Ledger.empty.acquire (serverSocket : ℤ) ∧ s.ctxSocket = -1 ∧
      (serverSocket : ℤ) < fdSetSize
  | .serve _ loop => ServeInv s.descriptors loop
  | .exit loop => s.descriptors.Clean ∧ loop.serverSocket ∉ s.descriptors.held ∧
      loop.serverSocket ∈ fdList loop.refset
  | .ended => s.descriptors.Settled

/-- The thread ends neither between `modbus_tcp_pi_listen` and `FD_SET`, nor after it has served a
client, nor by the exit after a failed `select`. -/
def EndsUnserved (s : TcpSlave) (l : TcpSlaveLabel) : Prop :=
  (∀ loop, s.point ≠ .exit loop) ∧
    (l = .cancel → s.ctxSocket = -1 ∧ ∀ serverSocket, s.point ≠ .listening serverSocket)

variable {config : TTcpConfig} {s s' : TcpSlave} {c : TcpSlaveCall} {l : TcpSlaveLabel}
  {loop loop' : SelectLoop} {label : SelectLabel}

theorem ServeInv.bound (h : ServeInv descriptors loop) :
    ∀ d ∈ loop.refset, 0 ≤ d ∧ d < fdSetSize := by
  intro d hd
  obtain ⟨serverSocket, hserver, hselect⟩ := h.select
  have hle := hselect.le_fdmax h.running d hd
  have hlt := hselect.fdmax_lt
  have hnonneg := hselect.nonneg d hd
  omega

/-- The server socket stays in the set. -/
theorem ServeInv.server_mem (h : ServeInv descriptors loop) : loop.serverSocket ∈ loop.refset := by
  obtain ⟨serverSocket, -, hselect⟩ := h.select
  rw [hselect.refset_eq h.running]
  exact Finset.mem_insert_self _ _

/-- A step of the loop keeps the invariant, if it changes what the thread owns as it changes the
set. -/
theorem ServeInv.step {descriptors' : Ledger ℤ} (h : ServeInv descriptors loop)
    (hs : selectStep loop label = some loop') (hlabel : label ≠ .selectFails)
    (hclean : descriptors'.Clean) (hheld : descriptors'.held = loop'.refset) :
    ServeInv descriptors' loop' := by
  obtain ⟨serverSocket, hserver, hselect⟩ := h.select
  have hstep := selectStep_cases hs
  refine ⟨⟨serverSocket, hserver, hselect.step hstep⟩, ?_, hclean, hheld⟩
  cases hstep with
  | connect => exact h.running
  | selectFails => exact absurd rfl hlabel
  | _ => simp

/-- `accept` adds the new descriptor to the set. -/
theorem ServeInv.accept {newfd : Option ℤ} (h : ServeInv descriptors loop)
    (hs : selectStep loop (.accept newfd) = some loop') :
    ServeInv (newfd.elim descriptors descriptors.acquire) loop' := by
  refine h.step hs (by simp) ?_ ?_
  · cases newfd <;> exact h.clean
  · cases selectStep_cases hs with
    | acceptFails => exact h.held
    | accept k newfd =>
      show insert newfd descriptors.held = insert newfd loop.refset
      rw [h.held]

/-- All other steps of the loop leave the set alone. -/
theorem ServeInv.scan (h : ServeInv descriptors loop) (hs : selectStep loop label = some loop')
    (hfails : label ≠ .selectFails) (hrequest : ∀ ret, label ≠ .request ret)
    (haccept : ∀ newfd, label ≠ .accept newfd) : ServeInv descriptors loop' := by
  refine h.step hs hfails h.clean ?_
  cases selectStep_cases hs with
  | selectFails => exact absurd rfl hfails
  | acceptFails | accept => exact absurd rfl (haccept _)
  | request | close => exact absurd rfl (hrequest _)
  | _ => exact h.held

/-- A request serves the ready client, and closes it if it fails. -/
theorem refset_of_request {ret k : ℤ} (hk : loop.readyClient = some k)
    (hs : selectStep loop (.request ret) = some loop') :
    k ∈ loop.rdset ∧ loop.point = .scan k ∧
      loop'.refset = if ret < 0 then loop.refset.erase k else loop.refset := by
  simp only [SelectLoop.readyClient] at hk
  simp only [selectStep] at hs
  split at hs
  · rename_i masterSocket hpoint
    rw [hpoint] at hk
    simp only [Option.ite_none_right_eq_some] at hk hs
    obtain ⟨⟨-, hready, -⟩, hk⟩ := hk
    cases hk
    refine ⟨hready, hpoint, ?_⟩
    obtain ⟨-, hs⟩ := hs
    by_cases hret : ret < 0
    · rw [if_pos hret] at hs ⊢
      cases hs
      rfl
    · rw [if_neg hret] at hs ⊢
      cases hs
      rfl
  · cases hs

theorem ServeInv.request {ret k : ℤ} (h : ServeInv descriptors loop)
    (hk : loop.readyClient = some k) (hs : selectStep loop (.request ret) = some loop') :
    ServeInv (if ret < 0 then descriptors.release k else descriptors) loop' := by
  obtain ⟨hready, hpoint, hrefset⟩ := refset_of_request hk hs
  refine h.step hs (by simp) ?_ ?_
  · split_ifs
    · obtain ⟨serverSocket, -, hselect⟩ := h.select
      rw [Ledger.release_clean, h.held]
      exact ⟨h.clean, (hselect.ahead k hpoint k hready le_rfl).1⟩
    · exact h.clean
  · rw [hrefset]
    split_ifs
    · rw [Ledger.release_held, h.held]
    · exact h.held

/-- The start of the loop, with the server socket. -/
theorem serveInv_start {serverSocket : ℕ} (hserver : (serverSocket : ℤ) < fdSetSize) :
    ServeInv (Ledger.empty.acquire (serverSocket : ℤ)) (.start config serverSocket) :=
  ⟨⟨serverSocket, hserver, selectInv_start config serverSocket⟩, nofun, rfl, rfl⟩

/-- Which ends of the thread are right. -/
theorem TcpSlaveInv.exit_settled_iff (h : TcpSlaveInv s) (hne : s.point ≠ .ended) :
    s.exit.descriptors.Settled ↔ s.ctxSocket = -1 ∧
      (∀ serverSocket, s.point ≠ .listening serverSocket) ∧ ∀ loop, s.point ≠ .exit loop := by
  unfold TcpSlaveInv at h
  unfold TcpSlave.exit
  cases hpoint : s.point with
  | setup p =>
    rw [hpoint] at h
    have hclean : (Ledger.empty : Ledger ℤ).Clean := rfl
    rw [h.1]
    refine (cleanup_settled_iff hclean Ledger.empty_held (by simp)).trans ?_
    simp
  | listening serverSocket =>
    rw [hpoint] at h
    refine iff_of_false (not_cleanup_settled (d := serverSocket) ?_) (by simp)
    rw [h.1, h.2.1]
    simp [cleanupTcpSlaveThread, TcpSlavePoint.refset]
  | serve p loop =>
    rw [hpoint] at h
    rw [TcpSlavePoint.refset, cleanup_settled_iff h.clean h.held h.bound]
    simp
  | exit loop =>
    rw [hpoint] at h
    refine iff_of_false (not_cleanup_settled (d := loop.serverSocket) ?_) (by simp)
    simp only [cleanupTcpSlaveThread, List.mem_append, TcpSlavePoint.refset]
    exact fun hiff => h.2.1 (hiff.mp (.inr h.2.2))
  | ended => exact absurd hpoint hne

theorem TcpSlaveInv.setup {p : SetupPoint} (h : TcpSlaveInv s) (hpoint : s.point = .setup p) :
    s.descriptors = .empty ∧ s.ctxSocket = -1 := by
  unfold TcpSlaveInv at h
  rwa [hpoint] at h

theorem TcpSlaveInv.serve {p : ServePoint} (h : TcpSlaveInv s) (hpoint : s.point = .serve p loop) :
    ServeInv s.descriptors loop := by
  unfold TcpSlaveInv at h
  rwa [hpoint] at h

/-- An exit before there is a server socket. -/
theorem TcpSlaveInv.exit_setup {p : SetupPoint} (h : TcpSlaveInv s) (hpoint : s.point = .setup p) :
    TcpSlaveInv s.exit := by
  refine (h.exit_settled_iff ?_).mpr ⟨(h.setup hpoint).2, ?_, ?_⟩
  all_goals simp [hpoint]

/-- A call keeps the invariant, unless it is the exit after a failed `select`. -/
theorem TcpSlaveInv.call (h : TcpSlaveInv s) (hs : callStep config s c = some s')
    (hexit : ∀ loop, s.point ≠ .exit loop) : TcpSlaveInv s' := by
  unfold callStep at hs
  split at hs
  · -- `modbus_mapping_new`, and the exit if it has failed
    rename_i hpoint
    cases hs
    exact h.setup hpoint
  · rename_i hpoint
    cases hs
    exact h.exit_setup hpoint
  · -- `modbus_new_tcp_pi`, and the exit if it has failed
    rename_i hpoint
    cases hs
    exact h.setup hpoint
  · rename_i hpoint
    cases hs
    exact h.exit_setup hpoint
  · -- `modbus_tcp_pi_listen` fails
    rename_i hpoint
    cases hs
    exact h.setup hpoint
  · -- the server socket
    rename_i serverSocket hpoint
    rw [Option.ite_none_right_eq_some] at hs
    obtain ⟨hserver, hs⟩ := hs
    cases hs
    obtain ⟨hempty, hsocket⟩ := h.setup hpoint
    exact ⟨congrArg (Ledger.acquire · _) hempty, hsocket, hserver⟩
  · rename_i hpoint
    cases hs
    exact h.setup hpoint
  · -- the loop begins
    rename_i serverSocket hpoint
    cases hs
    unfold TcpSlaveInv at h
    rw [hpoint] at h
    show ServeInv s.descriptors (.start config serverSocket)
    rw [h.1]
    exact serveInv_start h.2.2
  · rename_i hpoint
    rw [Option.ite_none_right_eq_some] at hs
    cases hs.2
    exact h.serve hpoint
  · cases hs
  · -- `accept`
    rename_i hpoint
    obtain ⟨loop', hstep, hs⟩ := Option.bind_eq_some_iff.mp hs
    cases hs
    exact (h.serve hpoint).accept hstep
  · -- the other steps of the loop
    rename_i hfails hrequest haccept hpoint
    obtain ⟨loop', hstep, hs⟩ := Option.bind_eq_some_iff.mp hs
    cases hs
    exact (h.serve hpoint).scan hstep hfails hrequest haccept
  · rename_i hpoint
    obtain ⟨masterSocket, hready, hs⟩ := Option.bind_eq_some_iff.mp hs
    cases hs
    exact h.serve hpoint
  · rename_i hpoint
    cases hs
    exact h.serve hpoint
  · -- a request
    rename_i hpoint
    obtain ⟨masterSocket, hready, hs⟩ := Option.bind_eq_some_iff.mp hs
    obtain ⟨loop', hstep, hs⟩ := Option.bind_eq_some_iff.mp hs
    cases hs
    exact (h.serve hpoint).request hready hstep
  · rename_i hpoint
    cases hs
    exact h.serve hpoint
  · -- the server socket is closed, and stays in the set
    rename_i hpoint
    cases hs
    have hserve := h.serve hpoint
    have hserver := hserve.server_mem
    refine ⟨?_, ?_, ?_⟩
    · rw [Ledger.release_clean, hserve.held]
      exact ⟨hserve.clean, hserver⟩
    · exact Finset.notMem_erase _ _
    · exact mem_fdList.mpr ⟨hserve.bound _ hserver, hserver⟩
  · rename_i loop hpoint
    exact absurd hpoint (hexit loop)
  · cases hs

theorem tcpSlaveInv_start : TcpSlaveInv .start := ⟨rfl, rfl⟩

/-- At its end, a thread has kept its descriptors exactly if they are settled. -/
theorem exit_owned_iff : DescriptorsOwned s.exit ↔ s.exit.descriptors.Settled :=
  ⟨fun h => ⟨h.1, h.2 rfl⟩, fun h => ⟨h.1, fun _ => h.2⟩⟩

theorem TcpSlaveInv.owned (h : TcpSlaveInv s) : DescriptorsOwned s := by
  unfold TcpSlaveInv at h
  unfold DescriptorsOwned
  cases hpoint : s.point with
  | setup p =>
    rw [hpoint] at h
    rw [h.1]
    exact ⟨rfl, nofun⟩
  | listening serverSocket =>
    rw [hpoint] at h
    rw [h.1]
    exact ⟨rfl, nofun⟩
  | serve p loop =>
    rw [hpoint] at h
    exact ⟨h.clean, nofun⟩
  | exit loop =>
    rw [hpoint] at h
    exact ⟨h.1, nofun⟩
  | ended =>
    rw [hpoint] at h
    exact ⟨h.1, fun _ => h.2⟩

/-- The thread does not go on from its end. -/
theorem tcpSlaveStep_ne_ended (hs : tcpSlaveStep config s l = some s') : s.point ≠ .ended := by
  intro hpoint
  cases l with
  | call c =>
    rw [tcpSlaveStep] at hs
    unfold callStep at hs
    rw [hpoint] at hs
    cases hs
  | cancel =>
    rw [tcpSlaveStep, hpoint] at hs
    cases hs

theorem TcpSlaveInv.step (h : TcpSlaveInv s) (hs : tcpSlaveStep config s l = some s')
    (hok : EndsUnserved s l) : TcpSlaveInv s' := by
  cases l with
  | call c => exact h.call hs hok.1
  | cancel =>
    have hne := tcpSlaveStep_ne_ended hs
    rw [tcpSlaveStep, Option.ite_none_right_eq_some] at hs
    cases hs.2
    obtain ⟨hsocket, hlistening⟩ := hok.2 rfl
    exact (h.exit_settled_iff hne).mpr ⟨hsocket, hlistening, hok.1⟩

/-- An end that the condition excludes closes a descriptor twice, or not at all. -/
theorem TcpSlaveInv.not_owned (h : TcpSlaveInv s) (hs : tcpSlaveStep config s l = some s')
    (hbad : ¬ EndsUnserved s l) : ¬ DescriptorsOwned s' := by
  have hne := tcpSlaveStep_ne_ended hs
  have hexit : s' = s.exit := by
    cases l with
    | call c =>
      -- a call that the condition excludes is the exit after a failed `select`
      have hpoint : ¬ ∀ loop, s.point ≠ .exit loop := fun hall => hbad ⟨hall, nofun⟩
      push Not at hpoint
      obtain ⟨loop, hpoint⟩ := hpoint
      rw [tcpSlaveStep] at hs
      unfold callStep at hs
      rw [hpoint] at hs
      cases c <;> cases hs
      rfl
    | cancel =>
      rw [tcpSlaveStep, Option.ite_none_right_eq_some] at hs
      exact (Option.some.inj hs.2).symm
  rw [hexit, exit_owned_iff, h.exit_settled_iff hne]
  rintro ⟨hsocket, hlistening, hall⟩
  exact hbad ⟨hall, fun _ => ⟨hsocket, hlistening⟩⟩

/-- **The descriptors of a TCP slave.** In a run of the thread, with any connections, requests and
failures, and a cancellation anywhere, each descriptor that `modbus_tcp_pi_listen` or `accept` has
returned is closed once and no other number is closed exactly when the thread ends before it has
served a client, not between `modbus_tcp_pi_listen` and `FD_SET`, and not by a failed `select`. -/
theorem descriptorsOwned_iff (config : TTcpConfig) (labels : List TcpSlaveLabel) :
    Throughout (tcpSlaveStep config) DescriptorsOwned .start labels ↔
      Along (tcpSlaveStep config) EndsUnserved .start labels :=
  throughout_iff_along (fun _ h => TcpSlaveInv.owned h)
    (fun _ _ _ h hs hok => TcpSlaveInv.step h hs hok)
    (fun _ _ _ h hs hbad => TcpSlaveInv.not_owned h hs hbad) tcpSlaveInv_start labels

/-- One client connects and sends a request, and then the thread is cancelled in `select`. -/
def cancelledAfterRequest : List TcpSlaveLabel :=
  [.call (.mappingNew true), .call (.newTcpPi true), .call (.listen (some 3)), .call .syslog,
    .call (.select .connect), .call (.select (.select {3})), .call (.select .next),
    .call (.select .next), .call (.select .next), .call (.select (.accept (some 4))),
    .call .syslog, .call (.select .next), .call (.select .next),
    .call (.select (.select {4})), .call (.select .next), .call (.select .next),
    .call (.select .next), .call (.select .next), .call .setSocket,
    .call (.select (.request 0)), .call (.select .next), .cancel]

/-- The handler closes the socket of the client through the context, and then once more. -/
theorem not_descriptorsOwned_cancelledAfterRequest :
    ¬ Throughout (tcpSlaveStep oneConnectionConfig) DescriptorsOwned .start
      cancelledAfterRequest := by
  intro h
  have hrun : (run (tcpSlaveStep oneConnectionConfig) .start cancelledAfterRequest).map
      (fun s => s.descriptors.misused) = some true := by decide +kernel
  obtain ⟨s, hs, hmisused⟩ := Option.map_eq_some_iff.mp hrun
  have hclean := (h.last hs).1
  unfold Ledger.Clean at hclean
  rw [hclean] at hmisused
  cases hmisused

end RevPiModbus
