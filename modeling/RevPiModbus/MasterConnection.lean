import RevPiModbus.StatusLatch

/-!
# The connection of a master and its status byte

The status byte of a device is the only thing that the user of the process image sees of the
connection. It is written at the connect, cleared by its reset bit, and not touched by failed
actions; the TCP thread drops the connection after too many of them in a row, the RTU thread never
does.

* `ConnectionEvent`, `observeConnection`, `watchedStep`: what happens to the connection in a run;
* `failuresInARow`, `isEstablished`, `reportedStatus`: what follows from a history;
* `DeviceSeparated`: the layout of the process image that the result needs;
* `ConnectionInv`, `connection_run`: where the thread is, its error count and the status byte in
  every run.
-/

namespace RevPiModbus

open ByteImage Transition

variable {σ : Type} {host : Host σ} {config : TModbusMasterConfiguration}

/-! ## The history of a connection -/

/-- What a thread learns about its connection: `modbus_connect` fails, or the loop begins, or
`initScheduler` fails; an action is processed; the reset bit of the device is honoured. -/
inductive ConnectionEvent
  | refused
  | established
  | unscheduled
  | acted (failed : Bool)
  | honoured
  deriving DecidableEq, Repr

/-- The failed actions since the last success and the last connect, the last event first. -/
def failuresInARow : List ConnectionEvent → ℕ
  | .acted true :: events => failuresInARow events + 1
  | .honoured :: events => failuresInARow events
  | _ => 0

/-- Nothing but actions and resets since the loop has begun. -/
def isEstablished : List ConnectionEvent → Bool
  | .established :: _ => true
  | .acted _ :: events | .honoured :: events => isEstablished events
  | _ => false

/-- The status byte of the device: the last report, or 0 if it has been reset since. -/
def reportedStatus (initial : UInt8) : List ConnectionEvent → UInt8
  | [] => initial
  | .refused :: _ => EModbusErrors.noResponseFromDevice.code
  | .established :: _ => EModbusErrors.noError.code
  | .unscheduled :: _ => EModbusErrors.internalError.code
  | .honoured :: _ => 0
  | .acted _ :: events => reportedStatus initial events

/-- The events of one step of a loop. -/
def observeConnection (host : Host σ) (config : TModbusMasterConfiguration) (s : LoopState σ) :
    LoopLabel σ → List ConnectionEvent
  | .connect false _ _ => [.refused]
  | .connect true malloc currentTime =>
    match initScheduler malloc currentTime config.mbActionListHead with
    | .ok (ret, _) => if ret < 0 then [.unscheduled] else [.established]
    | .error _ => []
  | .proceed =>
    match s.phase with
    | .reset [] _ =>
      if bit (host.image s.state) (deviceLatch host config).reset then [.honoured] else []
    | .process nextEvent =>
      match config.mbActionListHead[nextEvent.ptModbusAction]? with
      | some action =>
        match processModbusAction host action s.buffer s.state with
        | .ok out => [.acted (out.len < 0)]
        | .error _ => []
      | none => []
    | _ => []
  | .user _ => []

/-- The user, and the other devices, do not write to the status byte of this one. -/
def LeavesDevice (host : Host σ) (config : TModbusMasterConfiguration) (s : LoopState σ) :
    LoopLabel σ → Prop
  | .user state => host.image state (deviceLatch host config).status =
      host.image s.state (deviceLatch host config).status
  | _ => True

instance (s : LoopState σ) (l : LoopLabel σ) : Decidable (LeavesDevice host config s l) := by
  cases l <;> unfold LeavesDevice <;> infer_instance

/-- A step of a loop together with the history up to it. -/
def watchedStep (host : Host σ) (config : TModbusMasterConfiguration)
    (x : LoopState σ × List ConnectionEvent) (l : LoopLabel σ) :
    Option (LoopState σ × List ConnectionEvent) :=
  if LeavesDevice host config x.1 l then
    (loopStep host config x.1 l).map fun s => (s, observeConnection host config x.1 l ++ x.2)
  else none

/-- The latch of the device is separate from those of the actions, from their data, and in
itself. -/
structure DeviceSeparated (host : Host σ) (config : TModbusMasterConfiguration) : Prop where
  actions : ∀ a ∈ config.mbActionListHead, (a.latch host).Separate (deviceLatch host config)
  window : ∀ a ∈ config.mbActionListHead, ∀ k, InDataWindow a k →
    k / 8 ≠ (deviceLatch host config).status
  own : (deviceLatch host config).reset / 8 ≠ (deviceLatch host config).status

/-- Where the thread is, and what it reports, after a history. -/
structure ConnectionInv (host : Host σ) (config : TModbusMasterConfiguration) (initial : UInt8)
    (x : LoopState σ × List ConnectionEvent) : Prop where
  /-- The status byte is that of the history. -/
  status : host.image x.1.state (deviceLatch host config).status = reportedStatus initial x.2
  /-- The thread connects at its start, and as a TCP thread after it has been refused and after the
  101st failure in a row. -/
  connecting : x.1.phase = .connect → x.2 = [] ∨
    config.tModbusDeviceConfig.uProt.eProtocol = .protTCP ∧
      (x.2.head? = some .refused ∨ isEstablished x.2 = true ∧ failuresInARow x.2 = 101)
  /-- In the loop the error count is that of the history; a TCP thread stays in it with at most 100
  failures in a row. -/
  running : x.1.phase ≠ .connect → x.1.phase ≠ .ended →
    isEstablished x.2 = true ∧ x.1.errCnt = failuresInARow x.2 ∧
      (config.tModbusDeviceConfig.uProt.eProtocol = .protTCP → failuresInARow x.2 ≤ 100)
  /-- A thread ends only because it has no scheduler, or as an RTU thread because it has been
  refused. -/
  ended : x.1.phase = .ended → x.2.head? = some .unscheduled ∨
    config.tModbusDeviceConfig.uProt.eProtocol = .protRTU ∧ x.2.head? = some .refused

/-! ## The status byte of the device -/

/-- `processModbusAction` leaves a byte alone that is neither the status byte of the action nor one
of its data. -/
theorem processModbusAction_unchanged (hhost : host.Succeeds) {action : TModbusAction}
    {buffer : List UInt8} {s : σ} {out : Transaction σ}
    (h : processModbusAction host action buffer s = .ok out) {a : ℕ}
    (hstatus : a ≠ (action.latch host).status) (hwindow : ∀ k, InDataWindow action k → k / 8 ≠ a) :
    host.image out.state a = host.image s a := by
  unfold processModbusAction at h
  obtain ⟨t, hswitch, h⟩ := bind_eq_ok.mp h
  have hframe : host.image t.state a = host.image s a := by
    apply eq_of_bit
    intro k hk
    exact (switchFunctionCode_frame hhost hswitch).image k fun hin => hwindow k hin hk
  by_cases hlen : t.len < 0
  · rw [if_pos hlen] at h
    cases h
    show host.image (writeErrorMessage host _ _ t.state).2 a = _
    rw [writeErrorMessage_image hhost, write_singleton]
    exact (if_neg hstatus).trans hframe
  · rw [if_neg hlen] at h
    cases h
    exact hframe

theorem writeDeviceStatus_status (hhost : host.Succeeds) (error : EModbusErrors) (s : σ) :
    host.image (writeDeviceStatus host config error s) (deviceLatch host config).status =
      error.code := by
  unfold writeDeviceStatus
  rw [writeErrorMessage_image hhost]
  exact (write_singleton _ _ _).trans (if_pos rfl)

/-- The parser does not touch the status byte of the device. -/
theorem start_deviceStatus (hhost : host.Succeeds) (hsep : DeviceSeparated host config)
    (state : σ) :
    host.image (LoopState.start host config state).state (deviceLatch host config).status =
      host.image state (deviceLatch host config).status := by
  have hactions := hsep.actions
  show host.image (config.mbActionListHead.reverse.foldl _ state) _ = _
  rw [List.foldl_reverse]
  generalize config.mbActionListHead = actions at hactions
  induction actions with
  | nil => rfl
  | cons a actions ih =>
    rw [List.forall_mem_cons] at hactions
    rw [List.foldr_cons, initializeStatus_image hhost, write_singleton,
      if_neg hactions.1.status_ne.symm, setBit_of_div_ne hactions.1.reset_status.symm]
    exact ih hactions.2

/-! ## The steps -/

variable {initial : UInt8} {s s' : LoopState σ} {history : List ConnectionEvent}

theorem connectionInv_of_connect (hhost : host.Succeeds) {connected : Bool} {malloc : ℕ → Bool}
    {currentTime : Timespec}
    (hs : connectStep host config connected malloc currentTime s = some s') :
    ConnectionInv host config initial
      (s', observeConnection host config s (.connect connected malloc currentTime) ++ history) := by
  unfold connectStep at hs
  cases connected with
  | false =>
    cases hs
    cases hprotocol : config.tModbusDeviceConfig.uProt.eProtocol with
    | protTCP =>
      refine ⟨writeDeviceStatus_status hhost _ _, fun _ => .inr ⟨hprotocol, .inl rfl⟩, ?_, ?_⟩
      · intro hconnect
        exact absurd rfl hconnect
      · intro hended
        cases hended
    | protRTU =>
      refine ⟨writeDeviceStatus_status hhost _ _, ?_, ?_, fun _ => .inr ⟨hprotocol, rfl⟩⟩
      · intro hconnect
        cases hconnect
      · intro _ hended
        exact absurd rfl hended
  | true =>
    rw [if_pos rfl] at hs
    cases hinit : initScheduler malloc currentTime config.mbActionListHead with
    | error fault =>
      rw [hinit] at hs
      cases hs
    | ok r =>
      have hobserve : observeConnection host config s (.connect true malloc currentTime) =
          if r.1 < 0 then [.unscheduled] else [.established] := by
        simp only [observeConnection, hinit]
      rw [hinit] at hs
      simp only at hs
      rw [hobserve]
      split_ifs at hs ⊢ with hret
      · cases hs
        exact ⟨writeDeviceStatus_status hhost _ _, by simp, by simp, fun _ => .inl rfl⟩
      · cases hs
        exact ⟨writeDeviceStatus_status hhost _ _, by simp,
          fun _ _ => ⟨rfl, rfl, fun _ => Nat.zero_le _⟩, by simp⟩

/-- A step inside the loop that neither counts nor reports anything. -/
theorem ConnectionInv.silent (h : ConnectionInv host config initial (s, history))
    (hrunning : s.phase ≠ .connect ∧ s.phase ≠ .ended)
    (hrunning' : s'.phase ≠ .connect ∧ s'.phase ≠ .ended) (herrCnt : s'.errCnt = s.errCnt)
    (hstatus : host.image s'.state (deviceLatch host config).status =
      host.image s.state (deviceLatch host config).status) :
    ConnectionInv host config initial (s', history) where
  status := hstatus.trans h.status
  connecting hconnect := absurd hconnect hrunning'.1
  running _ _ := by
    have hcount := h.running hrunning.1 hrunning.2
    exact ⟨hcount.1, herrCnt.trans hcount.2.1, hcount.2.2⟩
  ended hended := absurd hended hrunning'.2

theorem ConnectionInv.deviceReset (hhost : host.Succeeds) (hsep : DeviceSeparated host config)
    (h : ConnectionInv host config initial (s, history)) {nextEvent : TModbusEvent}
    (hphase : s.phase = .reset [] nextEvent) :
    ConnectionInv host config initial ({ s with
      phase := .process nextEvent
      state := (resetModbusMasterStatus host
        config.tModbusDeviceConfig.i32uDeviceStatusResetByteProcessImageByteOffset
        config.tModbusDeviceConfig.i32uDeviceStatusByteProcessImageOffset s.state).2 },
      observeConnection host config s .proceed ++ history) := by
  have hcount := h.running (by simp [hphase]) (by simp [hphase])
  have himage : host.image (resetModbusMasterStatus host
      config.tModbusDeviceConfig.i32uDeviceStatusResetByteProcessImageByteOffset
      config.tModbusDeviceConfig.i32uDeviceStatusByteProcessImageOffset s.state).2
        (deviceLatch host config).status =
      if bit (host.image s.state) (deviceLatch host config).reset then 0
      else host.image s.state (deviceLatch host config).status := by
    unfold resetModbusMasterStatus
    rw [resetModbusActionStatus_image hhost]
    exact clearLatch_status hsep.own
  simp only [observeConnection, hphase]
  by_cases hbit : bit (host.image s.state) (deviceLatch host config).reset = true
  · rw [if_pos hbit] at himage ⊢
    exact ⟨himage, by simp, fun _ _ => hcount, by simp⟩
  · rw [if_neg hbit] at himage ⊢
    exact ⟨himage.trans h.status, by simp, fun _ _ => hcount, by simp⟩

theorem ConnectionInv.process (hhost : host.Succeeds) (hsep : DeviceSeparated host config)
    (h : ConnectionInv host config initial (s, history)) {nextEvent : TModbusEvent}
    (hphase : s.phase = .process nextEvent) {action : TModbusAction}
    (haction : config.mbActionListHead[nextEvent.ptModbusAction]? = some action)
    (hs : processStep host config action s = some s') :
    ConnectionInv host config initial
      (s', observeConnection host config s .proceed ++ history) := by
  obtain ⟨hestablished, hcount, hmost⟩ := h.running (by simp [hphase]) (by simp [hphase])
  have herrCnt : s.errCnt = failuresInARow history := hcount
  have ha := List.mem_of_getElem? haction
  unfold processStep at hs
  cases hprocess : processModbusAction host action s.buffer s.state with
  | error fault =>
    rw [hprocess] at hs
    cases hs
  | ok out =>
    rw [hprocess] at hs
    have hnext : ¬ out.len < 0 → s'.phase = .nextEvent := by
      intro hlen
      cases hs
      cases config.tModbusDeviceConfig.uProt.eProtocol <;> simp [hlen]
    cases hs
    have hstatus : host.image out.state (deviceLatch host config).status =
        reportedStatus initial history := by
      rw [processModbusAction_unchanged hhost hprocess (hsep.actions action ha).status_ne.symm
        (hsep.window action ha)]
      exact h.status
    have hobserve : observeConnection host config s .proceed = [.acted (out.len < 0)] := by
      simp only [observeConnection, hphase, haction, hprocess]
    rw [hobserve]
    by_cases hlen : out.len < 0
    · have hfailures : failuresInARow ([.acted (out.len < 0)] ++ history) =
          failuresInARow history + 1 := by simp [hlen, failuresInARow]
      cases hprotocol : config.tModbusDeviceConfig.uProt.eProtocol with
      | protTCP =>
        -- the 101st failure is the one behind 100 others
        have hbound : failuresInARow history ≤ 100 := hmost hprotocol
        refine ⟨hstatus, fun hconnect => .inr ⟨hprotocol, .inr ⟨hestablished, ?_⟩⟩, ?_, ?_⟩
        · have hmany : 100 < s.errCnt + 1 := by
            by_contra hfew
            simp [hlen, hfew] at hconnect
          exact hfailures.trans (by omega)
        · intro hconnect _
          have hfew : ¬ 100 < s.errCnt + 1 := fun hmany => hconnect (by simp [hlen, hmany])
          refine ⟨hestablished, ?_, fun _ => hfailures.trans_le (by omega)⟩
          rw [hfailures, ← herrCnt]
          simp [hlen]
        · intro hended
          dsimp only at hended
          split_ifs at hended
      | protRTU =>
        refine ⟨hstatus, by simp [hprotocol], fun _ _ => ⟨hestablished, ?_, by simp [hprotocol]⟩,
          by simp [hprotocol]⟩
        rw [hfailures, ← herrCnt]
        simp [hlen]
    · have hfailures : failuresInARow ([.acted (out.len < 0)] ++ history) = 0 := by
        simp [hlen, failuresInARow]
      refine ⟨hstatus, ?_, fun _ _ => ⟨hestablished, ?_, fun _ => ?_⟩, ?_⟩
      · intro hconnect
        exact absurd ((hnext hlen).symm.trans hconnect) (by simp)
      · rw [hfailures]
        simp [hlen]
      · rw [hfailures]
        exact Nat.zero_le _
      · intro hended
        exact absurd ((hnext hlen).symm.trans hended) (by simp)

/-- **Every step keeps the account of the connection.** -/
theorem ConnectionInv.step (hhost : host.Succeeds) (hsep : DeviceSeparated host config)
    {x x' : LoopState σ × List ConnectionEvent} {l : LoopLabel σ}
    (h : ConnectionInv host config initial x) (hs : watchedStep host config x l = some x') :
    ConnectionInv host config initial x' := by
  obtain ⟨s, history⟩ := x
  unfold watchedStep at hs
  rw [Option.ite_none_right_eq_some] at hs
  obtain ⟨hleaves, hs⟩ := hs
  obtain ⟨s', hloop, rfl⟩ := Option.map_eq_some_iff.mp hs
  cases l with
  | connect connected malloc currentTime =>
    simp only [loopStep, Option.ite_none_right_eq_some] at hloop
    exact connectionInv_of_connect hhost hloop.2
  | user state =>
    simp only [loopStep, Option.ite_none_right_eq_some] at hloop
    cases hloop.2
    exact ⟨hleaves.trans h.status, h.connecting, h.running, h.ended⟩
  | proceed =>
    simp only [loopStep] at hloop
    split at hloop
    · rename_i hphase
      have hobserve : observeConnection host config s .proceed = [] := by
        simp only [observeConnection, hphase]
      rw [hobserve]
      split at hloop
      · cases hloop
        exact h.silent (by simp [hphase]) (by simp) rfl rfl
      · cases hloop
    · rename_i i pending nextEvent hphase
      have hobserve : observeConnection host config s .proceed = [] := by
        simp only [observeConnection, hphase]
      rw [hobserve]
      split at hloop
      · rename_i action haction
        cases hloop
        have hseparate := hsep.actions action (List.mem_of_getElem? haction)
        refine h.silent (by simp [hphase]) (by simp) rfl ?_
        simp only [resetActionStatus_image hhost]
        exact clearLatch_of_ne hseparate.status_ne.symm hseparate.reset_status.symm
      · cases hloop
    · rename_i nextEvent hphase
      cases hloop
      exact h.deviceReset hhost hsep hphase
    · rename_i nextEvent hphase
      split at hloop
      · rename_i action haction
        exact h.process hhost hsep hphase haction hloop
      · cases hloop
    · cases hloop

/-- **The connection of a master.** Let the latch of the device be apart from those of the actions
and from their data. In every run of the TCP or the RTU loop, with piControl succeeding and a user
that leaves the status bytes alone and takes no reset bit of an action back, the status byte of the
device holds the last report about the connection, or 0 if its reset bit has been honoured since.
The error count of the loop is the number of failed actions since the last success and the last
connect. A TCP thread is back at the connect only after it has been refused or after the 101st
failure in a row, and never goes on with more than 100; an RTU thread never goes back. A thread ends
only when it has no scheduler, or as an RTU thread when it is refused. -/
theorem connection_run (hhost : host.Succeeds) (hsep : DeviceSeparated host config) (state : σ)
    (labels : List (LoopLabel σ)) :
    Throughout (watchedStep host config)
      (ConnectionInv host config (host.image state (deviceLatch host config).status))
      (.start host config state, []) labels := by
  refine throughout_of_invariant (fun _ _ _ h hs => h.step hhost hsep hs) ?_ labels
  refine ⟨start_deviceStatus hhost hsep state, fun _ => .inl rfl, ?_, ?_⟩
  · intro hconnect
    exact absurd rfl hconnect
  · intro hended
    cases hended

theorem twoReadsConfig_deviceSeparated : DeviceSeparated silentHost twoReadsConfig where
  actions := twoReadsConfig_separated.device
  window a ha k hk := by
    simp only [twoReadsConfig, List.mem_cons, List.not_mem_nil, or_false] at ha
    obtain rfl | rfl := ha <;>
      simp [InDataWindow, deviceLatch, twoReadsConfig] at hk ⊢ <;> omega
  own := by decide

/-- The first action fails; the status byte of the device is still that of the connect. -/
theorem connection_run_twoReads :
    Throughout (watchedStep silentHost twoReadsConfig)
      (ConnectionInv silentHost twoReadsConfig 0) (.start silentHost twoReadsConfig fun _ => 0, [])
      firstPass :=
  connection_run silentHost_succeeds twoReadsConfig_deviceSeparated (fun _ => 0) firstPass

end RevPiModbus
