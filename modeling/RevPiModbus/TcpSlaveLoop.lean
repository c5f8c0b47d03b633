import RevPiModbus.ModbusConfig
import RevPiModbus.Lib.Transition

/-!
# The connections of a TCP slave

`startTcpSlaveThread` from the successful `modbus_tcp_pi_listen` on: the thread waits in `select`
for its sockets, and then runs through all descriptors up to the highest to serve those that are
ready. A connection that is accepted during such a scan is added to the set for the next `select`,
and one whose request fails is closed and removed; both change the bound of the scan.

* `SelectLoop`, `SelectLabel`, `selectStep`: the variables of the thread, the sockets that are open,
  and the calls with what they return;
* `ConnectionsKept`, `ServesReady`: the sets agree with the open sockets, and a scan serves exactly
  what has been reported;
* `connections_kept`: both hold in every run; `scan_ends`: a scan is never stuck;
* `withinLimit_iff`: the runs in which the number of connections stays within the limit.
-/

namespace RevPiModbus

open Transition

/-- `FD_SETSIZE`. -/
def fdSetSize : ℤ := 1024

/-- Where the thread is: at `select`, or in the scan at a descriptor, or it has exited. -/
inductive SelectPoint
  | select
  | scan (masterSocket : ℤ)
  | exited
  deriving DecidableEq, Repr

/-- The variables of the thread, and what the kernel has for it: the sockets of the clients that are
open, and the connections that wait to be accepted. `served` and `accepted` record what the present
scan, or the last one, has done. -/
structure SelectLoop where
  serverSocket : ℤ
  refset : Finset ℤ
  rdset : Finset ℤ
  fdmax : ℤ
  point : SelectPoint
  clients : Finset ℤ
  backlog : ℕ
  waiting : ℕ
  served : List ℤ
  accepted : Finset ℤ

/-- After `modbus_tcp_pi_listen`, where the limit becomes the backlog of the server socket. -/
def SelectLoop.start (config : TTcpConfig) (serverSocket : ℕ) : SelectLoop where
  serverSocket := serverSocket
  refset := {(serverSocket : ℤ)}
  rdset := ∅
  fdmax := serverSocket
  point := .select
  clients := ∅
  backlog := config.maxModbusConnections.toNat
  waiting := 0
  served := []
  accepted := ∅

/-- A step of the thread, with what the call returns, or of a client. -/
inductive SelectLabel
  /-- A client connects. It has to wait until it is accepted. -/
  | connect
  /-- `select`, with the descriptors that are ready. -/
  | select (ready : Finset ℤ)
  /-- `select` returns -1. -/
  | selectFails
  /-- The scan passes over a descriptor, or ends. -/
  | next
  /-- `accept`, with the new descriptor or -1. -/
  | accept (newfd : Option ℤ)
  /-- `process_modbus_request`. -/
  | request (ret : ℤ)

/-- The sockets of the thread that are open. -/
def SelectLoop.openSockets (s : SelectLoop) : Finset ℤ := insert s.serverSocket s.clients

/-- One step. `select` reports descriptors of the set below its first argument, and `accept` returns
a number that is not in use; other threads of the process may use further numbers. -/
def selectStep (s : SelectLoop) : SelectLabel → Option SelectLoop
  | .connect =>
    -- a queue holds one connection at least
    if s.waiting < max 1 s.backlog then some { s with waiting := s.waiting + 1 } else none
  | .select ready =>
    if s.point = .select ∧ ready ⊆ s.refset.filter (· < s.fdmax + 1) then
      some { s with point := .scan 0, rdset := ready, served := [], accepted := ∅ }
    else none
  | .selectFails => if s.point = .select then some { s with point := .exited } else none
  | .next =>
    match s.point with
    | .scan masterSocket =>
      if s.fdmax < masterSocket then some { s with point := .select }
      else if masterSocket ∈ s.rdset then none
      else some { s with point := .scan (masterSocket + 1) }
    | _ => none
  | .accept newfd =>
    match s.point with
    | .scan masterSocket =>
      if masterSocket ≤ s.fdmax ∧ masterSocket ∈ s.rdset ∧ masterSocket = s.serverSocket then
        match newfd with
        | none =>
          some { s with point := .scan (masterSocket + 1), served := masterSocket :: s.served }
        | some newfd =>
          if 0 < s.waiting ∧ 0 ≤ newfd ∧ newfd < fdSetSize ∧ newfd ∉ s.openSockets then
            some { s with
              point := .scan (masterSocket + 1)
              served := masterSocket :: s.served
              waiting := s.waiting - 1
              clients := insert newfd s.clients
              accepted := insert newfd s.accepted
              refset := insert newfd s.refset
              fdmax := if newfd > s.fdmax then newfd else s.fdmax }
          else none
      else none
    | _ => none
  | .request ret =>
    match s.point with
    | .scan masterSocket =>
      if masterSocket ≤ s.fdmax ∧ masterSocket ∈ s.rdset ∧ masterSocket ≠ s.serverSocket then
        if ret < 0 then
          some { s with
            point := .scan (masterSocket + 1)
            served := masterSocket :: s.served
            clients := s.clients.erase masterSocket
            refset := s.refset.erase masterSocket
            fdmax := if masterSocket = s.fdmax then s.fdmax - 1 else s.fdmax }
        else
          some { s with point := .scan (masterSocket + 1), served := masterSocket :: s.served }
      else none
    | _ => none

variable {s s' : SelectLoop} {l : SelectLabel}

/-- The steps, with what each of them needs and changes. In the scan, `k` is the descriptor. -/
inductive SelectStep (s : SelectLoop) : SelectLabel → SelectLoop → Prop
  | connect : SelectStep s .connect { s with waiting := s.waiting + 1 }
  | select (ready : Finset ℤ) (hpoint : s.point = .select) (hready : ∀ d ∈ ready, d ∈ s.refset) :
    SelectStep s (.select ready)
      { s with point := .scan 0, rdset := ready, served := [], accepted := ∅ }
  | selectFails : SelectStep s .selectFails { s with point := .exited }
  | scanEnds (k : ℤ) (hpoint : s.point = .scan k) (hend : s.fdmax < k) :
    SelectStep s .next { s with point := .select }
  | passes (k : ℤ) (hpoint : s.point = .scan k) (hle : k ≤ s.fdmax) (hready : k ∉ s.rdset) :
    SelectStep s .next { s with point := .scan (k + 1) }
  | acceptFails (k : ℤ) (hpoint : s.point = .scan k) (hle : k ≤ s.fdmax) (hready : k ∈ s.rdset) :
    SelectStep s (.accept none) { s with point := .scan (k + 1), served := k :: s.served }
  | accept (k newfd : ℤ) (hpoint : s.point = .scan k) (hle : k ≤ s.fdmax) (hready : k ∈ s.rdset)
    (hnonneg : 0 ≤ newfd) (hsize : newfd < fdSetSize) (hfresh : newfd ∉ s.openSockets) :
    SelectStep s (.accept (some newfd)) { s with
      point := .scan (k + 1)
      served := k :: s.served
      waiting := s.waiting - 1
      clients := insert newfd s.clients
      accepted := insert newfd s.accepted
      refset := insert newfd s.refset
      fdmax := if newfd > s.fdmax then newfd else s.fdmax }
  | request (k ret : ℤ) (hpoint : s.point = .scan k) (hle : k ≤ s.fdmax) (hready : k ∈ s.rdset) :
    SelectStep s (.request ret) { s with point := .scan (k + 1), served := k :: s.served }
  | close (k ret : ℤ) (hpoint : s.point = .scan k) (hle : k ≤ s.fdmax) (hready : k ∈ s.rdset)
    (hclient : k ≠ s.serverSocket) :
    SelectStep s (.request ret) { s with
      point := .scan (k + 1)
      served := k :: s.served
      clients := s.clients.erase k
      refset := s.refset.erase k
      fdmax := if k = s.fdmax then s.fdmax - 1 else s.fdmax }

theorem selectStep_cases (hs : selectStep s l = some s') : SelectStep s l s' := by
  cases l with
  | connect =>
    simp only [selectStep, Option.ite_none_right_eq_some] at hs
    cases hs.2
    exact .connect
  | select ready =>
    simp only [selectStep, Option.ite_none_right_eq_some] at hs
    obtain ⟨⟨hpoint, hready⟩, hs⟩ := hs
    cases hs
    exact .select ready hpoint fun d hd => (Finset.mem_filter.mp (hready hd)).1
  | selectFails =>
    simp only [selectStep, Option.ite_none_right_eq_some] at hs
    cases hs.2
    exact .selectFails
  | next =>
    simp only [selectStep] at hs
    split at hs
    · rename_i k hpoint
      split_ifs at hs with hend hready
      · cases hs
        exact .scanEnds k hpoint hend
      · cases hs
        exact .passes k hpoint (not_lt.mp hend) hready
    · cases hs
  | accept newfd =>
    simp only [selectStep] at hs
    split at hs
    · rename_i k hpoint
      rw [Option.ite_none_right_eq_some] at hs
      obtain ⟨⟨hle, hready, -⟩, hs⟩ := hs
      cases newfd with
      | none =>
        cases hs
        exact .acceptFails k hpoint hle hready
      | some newfd =>
        simp only [Option.ite_none_right_eq_some] at hs
        obtain ⟨⟨-, hnonneg, hsize, hfresh⟩, hs⟩ := hs
        cases hs
        exact .accept k newfd hpoint hle hready hnonneg hsize hfresh
    · cases hs
  | request ret =>
    simp only [selectStep] at hs
    split at hs
    · rename_i k hpoint
      rw [Option.ite_none_right_eq_some] at hs
      obtain ⟨⟨hle, hready, hclient⟩, hs⟩ := hs
      by_cases hret : ret < 0
      · rw [if_pos hret] at hs
        cases hs
        exact .close k ret hpoint hle hready hclient
      · rw [if_neg hret] at hs
        cases hs
        exact .request k ret hpoint hle hready
    · cases hs

/-! ## The sets of descriptors -/

/-- The descriptor that a step serves. -/
def SelectLoop.servedBy (s : SelectLoop) (l : SelectLabel) : Option ℤ :=
  match l, s.point with
  | .accept _, .scan masterSocket => some masterSocket
  | .request _, .scan masterSocket => some masterSocket
  | _, _ => none

/-- A step serves only a socket that is open and that `select` has reported, and not one that has
been accepted since. -/
def ServesReady (s : SelectLoop) (l : SelectLabel) : Prop :=
  ∀ d, s.servedBy l = some d → d ∈ s.rdset ∧ d ∈ s.openSockets ∧ d ∉ s.accepted ∧ d ∉ s.served

/-- While the thread runs, the set of descriptors is that of the open sockets and none is above the
bound; a scan comes to an end, and when it has ended it has served each socket that was ready once.
-/
structure ConnectionsKept (serverSocket : ℕ) (s : SelectLoop) : Prop where
  server : s.serverSocket = serverSocket ∧ s.serverSocket ∉ s.clients
  refset_eq : s.point ≠ .exited → s.refset = s.openSockets
  le_fdmax : s.point ≠ .exited → ∀ d ∈ s.refset, d ≤ s.fdmax
  scan_le : ∀ masterSocket, s.point = .scan masterSocket →
    masterSocket ≤ max fdSetSize (serverSocket + 1)
  served : s.point = .select → s.served.Nodup ∧ ∀ d, d ∈ s.served ↔ d ∈ s.rdset

/-- The invariant of a run: below the place of the scan the reported sockets have been served, and
from there on they are still open, and the same connections. -/
structure SelectInv (serverSocket : ℕ) (s : SelectLoop) : Prop
    extends ConnectionsKept serverSocket s where
  nonneg : ∀ d ∈ s.refset, 0 ≤ d
  fdmax_lt : s.fdmax < max fdSetSize (serverSocket + 1)
  scanned : ∀ masterSocket, s.point = .scan masterSocket →
    s.served.Nodup ∧ ∀ d, d ∈ s.served ↔ d ∈ s.rdset ∧ d < masterSocket
  ahead : ∀ masterSocket, s.point = .scan masterSocket →
    ∀ d ∈ s.rdset, masterSocket ≤ d → d ∈ s.refset ∧ d ∉ s.accepted

theorem selectInv_start (config : TTcpConfig) (serverSocket : ℕ) :
    SelectInv serverSocket (.start config serverSocket) := by
  have hserver : (serverSocket : ℤ) < max fdSetSize (serverSocket + 1) := by omega
  refine ⟨⟨⟨rfl, by simp [SelectLoop.start]⟩, fun _ => ?_, fun _ d hd => ?_, ?_, ?_⟩, ?_, hserver,
    ?_, ?_⟩
  · simp [SelectLoop.start, SelectLoop.openSockets]
  · exact (Finset.mem_singleton.mp hd).le
  · rintro _ ⟨⟩
  · simp [SelectLoop.start]
  · simp [SelectLoop.start]
  · rintro _ ⟨⟩
  · rintro _ ⟨⟩

/-- The scan goes on behind a descriptor that it has served, or that is not ready. -/
theorem SelectInv.served_succ {serverSocket : ℕ} (h : SelectInv serverSocket s) {masterSocket : ℤ}
    (hpoint : s.point = .scan masterSocket) (hready : masterSocket ∈ s.rdset) :
    (masterSocket :: s.served).Nodup ∧
      ∀ d, d ∈ masterSocket :: s.served ↔ d ∈ s.rdset ∧ d < masterSocket + 1 := by
  obtain ⟨hnodup, hserved⟩ := h.scanned masterSocket hpoint
  constructor
  · rw [List.nodup_cons]
    refine ⟨fun hmem => ?_, hnodup⟩
    exact lt_irrefl _ ((hserved masterSocket).mp hmem).2
  · intro d
    rw [List.mem_cons, hserved d, Int.lt_add_one_iff]
    constructor
    · rintro (rfl | ⟨hd, hlt⟩)
      · exact ⟨hready, le_rfl⟩
      · exact ⟨hd, hlt.le⟩
    · rintro ⟨hd, hle⟩
      obtain heq | hlt := hle.eq_or_lt
      · exact .inl heq
      · exact .inr ⟨hd, hlt⟩

/-- Serving a descriptor keeps the invariant, if it leaves the sets in agreement and the reported
sockets above the descriptor alone. -/
theorem SelectInv.serve {serverSocket : ℕ} (h : SelectInv serverSocket s) {masterSocket : ℤ}
    (hpoint : s.point = .scan masterSocket) (hle : masterSocket ≤ s.fdmax)
    (hready : masterSocket ∈ s.rdset) (hpoint' : s'.point = .scan (masterSocket + 1))
    (hserved' : s'.served = masterSocket :: s.served) (hrdset' : s'.rdset = s.rdset)
    (hserver' : s'.serverSocket = serverSocket ∧ s'.serverSocket ∉ s'.clients)
    (hrefset' : s'.refset = s'.openSockets) (hfdmax' : ∀ d ∈ s'.refset, d ≤ s'.fdmax)
    (hnonneg' : ∀ d ∈ s'.refset, 0 ≤ d) (hlt' : s'.fdmax < max fdSetSize (serverSocket + 1))
    (hahead : ∀ d ∈ s.refset, d ∉ s.accepted → masterSocket < d →
      d ∈ s'.refset ∧ d ∉ s'.accepted) : SelectInv serverSocket s' := by
  have hsucc := h.served_succ hpoint hready
  have hbound := h.fdmax_lt
  refine ⟨⟨hserver', fun _ => hrefset', fun _ => hfdmax', ?_, ?_⟩, hnonneg', hlt', ?_, ?_⟩
  · intro k hk
    obtain rfl : masterSocket + 1 = k := SelectPoint.scan.inj (hpoint'.symm.trans hk)
    omega
  · intro hselect
    cases hpoint'.symm.trans hselect
  · intro k hk
    obtain rfl : masterSocket + 1 = k := SelectPoint.scan.inj (hpoint'.symm.trans hk)
    rw [hserved', hrdset']
    exact hsucc
  · intro k hk d hd hkd
    obtain rfl : masterSocket + 1 = k := SelectPoint.scan.inj (hpoint'.symm.trans hk)
    rw [hrdset'] at hd
    obtain ⟨hrefset, haccepted⟩ := h.ahead masterSocket hpoint d hd (by omega)
    exact hahead d hrefset haccepted (by omega)

/-- A new connection: its number is none of those that the scan has still to serve. -/
theorem SelectInv.accept {serverSocket : ℕ} (h : SelectInv serverSocket s) {k newfd : ℤ}
    (hpoint : s.point = .scan k) (hle : k ≤ s.fdmax) (hready : k ∈ s.rdset) (hnonneg : 0 ≤ newfd)
    (hsize : newfd < fdSetSize) (hfresh : newfd ∉ s.openSockets) :
    SelectInv serverSocket { s with
      point := .scan (k + 1)
      served := k :: s.served
      waiting := s.waiting - 1
      clients := insert newfd s.clients
      accepted := insert newfd s.accepted
      refset := insert newfd s.refset
      fdmax := if newfd > s.fdmax then newfd else s.fdmax } := by
  have hne : s.point ≠ .exited := by rw [hpoint]; simp
  have hrefset := h.refset_eq hne
  have hbound := h.fdmax_lt
  refine h.serve hpoint hle hready rfl rfl rfl ⟨h.server.1, ?_⟩ ?_ ?_ ?_ ?_ ?_
  · show s.serverSocket ∉ insert newfd s.clients
    rw [Finset.mem_insert, not_or]
    refine ⟨fun heq => hfresh (heq ▸ Finset.mem_insert_self _ _), h.server.2⟩
  · show insert newfd s.refset = insert s.serverSocket (insert newfd s.clients)
    rw [hrefset, SelectLoop.openSockets, Finset.insert_comm]
  · intro d hd
    show d ≤ if newfd > s.fdmax then newfd else s.fdmax
    obtain rfl | hold := Finset.mem_insert.mp hd
    · split_ifs <;> omega
    · have := h.le_fdmax hne d hold
      split_ifs <;> omega
  · intro d hd
    obtain rfl | hold := Finset.mem_insert.mp hd
    · exact hnonneg
    · exact h.nonneg d hold
  · show (if newfd > s.fdmax then newfd else s.fdmax) < _
    split_ifs <;> omega
  · intro d hd haccepted _
    refine ⟨Finset.mem_insert_of_mem hd, fun hmem => ?_⟩
    obtain rfl | hold := Finset.mem_insert.mp hmem
    · exact hfresh (hrefset ▸ hd)
    · exact haccepted hold

/-- A connection that is closed: the bound goes down by one only, and may stay above all sockets
that are left. -/
theorem SelectInv.close {serverSocket : ℕ} (h : SelectInv serverSocket s) {k : ℤ}
    (hpoint : s.point = .scan k) (hle : k ≤ s.fdmax) (hready : k ∈ s.rdset)
    (hclient : k ≠ s.serverSocket) :
    SelectInv serverSocket { s with
      point := .scan (k + 1)
      served := k :: s.served
      clients := s.clients.erase k
      refset := s.refset.erase k
      fdmax := if k = s.fdmax then s.fdmax - 1 else s.fdmax } := by
  have hne : s.point ≠ .exited := by rw [hpoint]; simp
  have hbound := h.fdmax_lt
  refine h.serve hpoint hle hready rfl rfl rfl ⟨h.server.1, ?_⟩ ?_ ?_ ?_ ?_ ?_
  · exact fun hmem => h.server.2 (Finset.mem_of_mem_erase hmem)
  · show s.refset.erase k = insert s.serverSocket (s.clients.erase k)
    rw [h.refset_eq hne, SelectLoop.openSockets, Finset.erase_insert_of_ne hclient.symm]
  · intro d hd
    show d ≤ if k = s.fdmax then s.fdmax - 1 else s.fdmax
    have hdk := Finset.ne_of_mem_erase hd
    have := h.le_fdmax hne d (Finset.mem_of_mem_erase hd)
    split_ifs <;> omega
  · exact fun d hd => h.nonneg d (Finset.mem_of_mem_erase hd)
  · show (if k = s.fdmax then s.fdmax - 1 else s.fdmax) < _
    split_ifs <;> omega
  · exact fun d hd haccepted hlt => ⟨Finset.mem_erase.mpr ⟨hlt.ne', hd⟩, haccepted⟩

theorem SelectInv.step {serverSocket : ℕ} (h : SelectInv serverSocket s) (hs : SelectStep s l s') :
    SelectInv serverSocket s' := by
  cases hs with
  | connect => exact { h with }
  | select ready hpoint hready =>
    have hne : s.point ≠ .exited := by rw [hpoint]; decide
    refine ⟨⟨h.server, fun _ => h.refset_eq hne, fun _ => h.le_fdmax hne, ?_, ?_⟩, h.nonneg,
      h.fdmax_lt, ?_, ?_⟩
    · rintro _ ⟨⟩
      show (0 : ℤ) ≤ max fdSetSize (serverSocket + 1)
      unfold fdSetSize
      omega
    · rintro ⟨⟩
    · -- nothing has been served, and no descriptor lies below 0
      rintro _ ⟨⟩
      refine ⟨List.nodup_nil, fun d => iff_of_false List.not_mem_nil ?_⟩
      rintro ⟨hd, hneg⟩
      exact absurd (h.nonneg d (hready d hd)) (not_le.mpr hneg)
    · rintro _ ⟨⟩ d hd -
      exact ⟨hready d hd, Finset.notMem_empty d⟩
  | selectFails =>
    refine ⟨⟨h.server, fun hne => absurd rfl hne, fun hne => absurd rfl hne, ?_, ?_⟩, h.nonneg,
      h.fdmax_lt, ?_, ?_⟩
    · rintro _ ⟨⟩
    · rintro ⟨⟩
    · rintro _ ⟨⟩
    · rintro _ ⟨⟩
  | scanEnds k hpoint hend =>
    have hne : s.point ≠ .exited := by rw [hpoint]; simp
    obtain ⟨hnodup, hserved⟩ := h.scanned k hpoint
    refine ⟨⟨h.server, fun _ => h.refset_eq hne, fun _ => h.le_fdmax hne, ?_, ?_⟩, h.nonneg,
      h.fdmax_lt, ?_, ?_⟩
    · rintro _ ⟨⟩
    · -- the bound has not gone below a socket that is still to be served
      refine fun _ => ⟨hnodup, fun d => (hserved d).trans (and_iff_left_of_imp fun hd => ?_)⟩
      by_contra hge
      have hrefset := (h.ahead k hpoint d hd (not_lt.mp hge)).1
      have := h.le_fdmax hne d hrefset
      omega
    · rintro _ ⟨⟩
    · rintro _ ⟨⟩
  | passes k hpoint hle hready =>
    have hne : s.point ≠ .exited := by rw [hpoint]; simp
    have hbound := h.fdmax_lt
    obtain ⟨hnodup, hserved⟩ := h.scanned k hpoint
    refine ⟨⟨h.server, fun _ => h.refset_eq hne, fun _ => h.le_fdmax hne, ?_, ?_⟩, h.nonneg,
      h.fdmax_lt, ?_, ?_⟩
    · rintro _ ⟨⟩
      omega
    · rintro ⟨⟩
    · rintro _ ⟨⟩
      refine ⟨hnodup, fun d => (hserved d).trans (and_congr_right fun hd => ?_)⟩
      constructor
      · omega
      · intro hlt
        have hkd : d ≠ k := fun heq => hready (heq ▸ hd)
        omega
    · rintro _ ⟨⟩ d hd hkd
      exact h.ahead k hpoint d hd (by omega)
  | acceptFails k hpoint hle hready | request k ret hpoint hle hready =>
    have hne : s.point ≠ .exited := by rw [hpoint]; simp
    exact h.serve hpoint hle hready rfl rfl rfl h.server (h.refset_eq hne) (h.le_fdmax hne)
      h.nonneg h.fdmax_lt fun d hd haccepted _ => ⟨hd, haccepted⟩
  | accept k newfd hpoint hle hready hnonneg hsize hfresh =>
    exact h.accept hpoint hle hready hnonneg hsize hfresh
  | close k ret hpoint hle hready hclient => exact h.close hpoint hle hready hclient

/-- A descriptor that is served is the one at which the scan is, and ready. -/
theorem servedBy_of_step (hs : SelectStep s l s') {d : ℤ} (hd : s.servedBy l = some d) :
    s.point = .scan d ∧ d ∈ s.rdset := by
  cases hs with
  | acceptFails k hpoint hle hready | accept k newfd hpoint hle hready
  | request k ret hpoint hle hready | close k ret hpoint hle hready =>
    unfold SelectLoop.servedBy at hd
    rw [hpoint] at hd
    cases hd
    exact ⟨hpoint, hready⟩
  | _ => cases hd

theorem SelectInv.servesReady {serverSocket : ℕ} (h : SelectInv serverSocket s)
    (hs : SelectStep s l s') : ServesReady s l := by
  intro d hd
  obtain ⟨hpoint, hready⟩ := servedBy_of_step hs hd
  have hne : s.point ≠ .exited := by rw [hpoint]; simp
  obtain ⟨hrefset, haccepted⟩ := h.ahead d hpoint d hready le_rfl
  refine ⟨hready, h.refset_eq hne ▸ hrefset, haccepted, fun hserved => ?_⟩
  exact lt_irrefl d (((h.scanned d hpoint).2 d).mp hserved).2

/-- **The connections of a TCP slave.** In every run of the thread, with any ready descriptors,
accepted connections and results of the requests, the set of descriptors is that of the open
sockets and the bound of the scan is not below any of them; each scan serves every descriptor that
is ready once, and no socket that has been closed, or accepted during the scan. -/
theorem connections_kept (config : TTcpConfig) (serverSocket : ℕ) (labels : List SelectLabel) :
    Throughout selectStep (ConnectionsKept serverSocket) (.start config serverSocket) labels ∧
      Along selectStep ServesReady (.start config serverSocket) labels := by
  have hstart := selectInv_start config serverSocket
  constructor
  · exact (throughout_of_invariant (fun _ _ _ h hs => h.step (selectStep_cases hs)) hstart
      labels).imp fun _ h => h.toConnectionsKept
  · exact along_of_invariant (fun _ _ _ h hs => h.step (selectStep_cases hs))
      (fun _ _ _ h hs => h.servesReady (selectStep_cases hs)) hstart labels

/-! ## The end of a scan -/

/-- A scan can always go on, to the next descriptor or to its end: nothing depends on the answer of
a request, and `accept` may fail. -/
theorem exists_step_of_scan {k : ℤ} (hpoint : s.point = .scan k) :
    ∃ l s', selectStep s l = some s' ∧
      ((s.fdmax < k ∧ s'.point = .select) ∨ (k ≤ s.fdmax ∧ s'.point = .scan (k + 1))) := by
  by_cases hend : s.fdmax < k
  · refine ⟨.next, { s with point := .select }, ?_, .inl ⟨hend, rfl⟩⟩
    simp [selectStep, hpoint, hend]
  rw [not_lt] at hend
  by_cases hready : k ∈ s.rdset
  · by_cases hserver : k = s.serverSocket
    · refine ⟨.accept none, { s with point := .scan (k + 1), served := k :: s.served }, ?_,
        .inr ⟨hend, rfl⟩⟩
      simp [selectStep, hpoint, hend, hready, ← hserver]
    · refine ⟨.request 0, { s with point := .scan (k + 1), served := k :: s.served }, ?_,
        .inr ⟨hend, rfl⟩⟩
      simp [selectStep, hpoint, hend, hready, hserver]
  · refine ⟨.next, { s with point := .scan (k + 1) }, ?_, .inr ⟨hend, rfl⟩⟩
    simp [selectStep, hpoint, hend, hready]

/-- The scan is not above the bound for long. -/
theorem SelectInv.exists_run_to_select {serverSocket : ℕ} {k : ℤ} (h : SelectInv serverSocket s)
    (hpoint : s.point = .scan k) :
    ∃ labels s', run selectStep s labels = some s' ∧ s'.point = .select := by
  -- the descriptors up to the bound that `scan_le` gives are left
  obtain ⟨n, hn⟩ : ∃ n : ℕ, max fdSetSize (serverSocket + 1) - k ≤ n :=
    ⟨(max fdSetSize (serverSocket + 1) - k).toNat, by omega⟩
  induction n generalizing s k with
  | zero =>
    have hbound := h.fdmax_lt
    obtain ⟨l, s', hs, ⟨-, hselect⟩ | ⟨hle, -⟩⟩ := exists_step_of_scan hpoint
    · exact ⟨[l], s', by simp [run, hs], hselect⟩
    · omega
  | succ n ih =>
    obtain ⟨l, s', hs, ⟨-, hselect⟩ | ⟨-, hscan⟩⟩ := exists_step_of_scan hpoint
    · exact ⟨[l], s', by simp [run, hs], hselect⟩
    · obtain ⟨labels, t, hrun, ht⟩ := ih (h.step (selectStep_cases hs)) hscan (by omega)
      exact ⟨l :: labels, t, by simp [run, hs, hrun], ht⟩

/-- **A scan is never stuck**: from every state of a run in which the thread scans it can get to the
next `select`. -/
theorem scan_ends (config : TTcpConfig) (serverSocket : ℕ) {labels : List SelectLabel} {k : ℤ}
    (hrun : run selectStep (.start config serverSocket) labels = some s)
    (hpoint : s.point = .scan k) :
    ∃ labels' s', run selectStep s labels' = some s' ∧ s'.point = .select :=
  ((throughout_of_invariant (fun _ _ _ h hs => h.step (selectStep_cases hs))
    (selectInv_start config serverSocket) labels).last hrun).exists_run_to_select hpoint

/-! ## The limit -/

/-- No more clients are connected than the limit allows. -/
def WithinLimit (config : TTcpConfig) (s : SelectLoop) : Prop :=
  s.clients.card ≤ config.maxModbusConnections.toNat

/-- A connection is accepted only while fewer clients are connected than the limit allows. -/
def AcceptsBelowLimit (config : TTcpConfig) (s : SelectLoop) : SelectLabel → Prop
  | .accept (some _) => s.clients.card < config.maxModbusConnections.toNat
  | _ => True

/-- How a step changes the number of clients. -/
theorem clients_of_step (hs : SelectStep s l s') :
    (∃ newfd, l = .accept (some newfd) ∧ s'.clients.card = s.clients.card + 1) ∨
      ((∀ newfd, l ≠ .accept (some newfd)) ∧ s'.clients.card ≤ s.clients.card) := by
  cases hs with
  | accept k newfd hpoint hle hready hnonneg hsize hfresh =>
    refine .inl ⟨newfd, rfl, Finset.card_insert_of_notMem fun hmem => ?_⟩
    exact hfresh (Finset.mem_insert_of_mem hmem)
  | close => exact .inr ⟨by simp, Finset.card_erase_le⟩
  | _ => exact .inr ⟨by simp, le_rfl⟩

/-- **The limit of the connections.** The limit of the configuration is the length of the queue in
front of `accept`, and nothing else: in a run of the thread the number of clients stays within it
exactly when no connection is accepted while as many clients are connected. -/
theorem withinLimit_iff (config : TTcpConfig) (serverSocket : ℕ) (labels : List SelectLabel) :
    Throughout selectStep (WithinLimit config) (.start config serverSocket) labels ↔
      Along selectStep (AcceptsBelowLimit config) (.start config serverSocket) labels := by
  refine throughout_iff_along (fun _ (h : WithinLimit config _) => h)
    (fun s l s' h hs hok => ?_) (fun s l s' h hs hbad hlimit => ?_) (Nat.zero_le _) labels
  · unfold WithinLimit at h ⊢
    obtain ⟨newfd, rfl, hcard⟩ | ⟨-, hcard⟩ := clients_of_step (selectStep_cases hs)
    · unfold AcceptsBelowLimit at hok
      omega
    · omega
  · unfold WithinLimit at hlimit
    obtain ⟨newfd, rfl, hcard⟩ | ⟨hother, -⟩ := clients_of_step (selectStep_cases hs)
    · unfold AcceptsBelowLimit at hbad
      omega
    · refine hbad ?_
      unfold AcceptsBelowLimit
      split
      · exact absurd rfl (hother _)
      · trivial

/-- A slave that is configured for one connection. -/
def oneConnectionConfig : TTcpConfig where
  szTcpIpAddress := "0.0.0.0".toList
  i32uPort := 502
  maxModbusConnections := 1

/-- One client connects after the other, and both are accepted. -/
def twoClients : List SelectLabel :=
  [.connect, .select {3}, .next, .next, .next, .accept (some 4), .next, .next,
    .connect, .select {3}, .next, .next, .next, .accept (some 5)]

theorem not_withinLimit_twoClients :
    ¬ Throughout selectStep (WithinLimit oneConnectionConfig) (.start oneConnectionConfig 3)
      twoClients := by
  intro h
  have hrun : (run selectStep (.start oneConnectionConfig 3) twoClients).map
      (fun s => s.clients.card) = some 2 := by decide +kernel
  obtain ⟨s, hs, hcard⟩ := Option.map_eq_some_iff.mp hrun
  have hlimit := h.last hs
  unfold WithinLimit at hlimit
  rw [hcard] at hlimit
  exact absurd hlimit (by decide)

end RevPiModbus
