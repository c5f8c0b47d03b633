import RevPiModbus.ActionEffect
import RevPiModbus.ModbusMasterThread

/-!
# The status bytes of the actions

The status byte and the reset bit of an action are a latch: a failed action leaves its error code
in the byte, and the loop clears the byte when it finds the reset bit set. This holds for both
loops, for any order in which the scheduler delivers the actions, and for any user of the process
image that leaves the status bytes alone.

* `processModbusAction_frame`: what the execution of an action leaves alone;
* `Separated`: the layout of the process image that the result needs;
* `StatusEvent`, `observe`, `expectedStatus`: the failures and resets of a run, and the status that
  follows from them;
* `statusLatch_run`: the status bytes of every run of a loop.
-/

namespace RevPiModbus

open ByteImage Transition

variable {σ : Type} {host : Host σ} {action : TModbusAction}

/-! ## The effect of the calls on the process image -/

theorem resetModbusActionStatus_image (hhost : host.Succeeds) (byteOffset : UInt32)
    (bitOffset : UInt8) (statusOffset : UInt32) (s : σ) :
    host.image (resetModbusActionStatus host byteOffset bitOffset statusOffset s).2 =
      clearLatch (host.image s)
        { reset := host.bitPosition byteOffset.toUInt16 bitOffset
          status := statusOffset.toNat } := by
  have hget := hhost.getBit_eq ⟨byteOffset.toUInt16, bitOffset, 0⟩ s
  have hgetImage := hhost.getBit_image ⟨byteOffset.toUInt16, bitOffset, 0⟩ s
  have hgetRet := hhost.getBit_ret ⟨byteOffset.toUInt16, bitOffset, 0⟩ s
  unfold resetModbusActionStatus clearLatch
  simp only [not_lt.mpr hgetRet, if_false, hget]
  by_cases hbit : bit (host.image s) (host.bitPosition byteOffset.toUInt16 bitOffset) = true
  · have hwriteRet : ¬ (host.piControlWrite statusOffset [0] (host.piControlGetBitValue
        ⟨byteOffset.toUInt16, bitOffset, 0⟩ s).2).1 < 0 := by
      rw [hhost.write_ret]
      simp
    have hone : (1 : UInt8) ≠ 0 := by decide
    simp only [hbit, if_true, if_pos hone, hwriteRet, if_false]
    rw [hhost.setBit_image, hhost.write_image, hgetImage]
    rfl
  · simp only [hbit, if_false, ne_eq, not_true_eq_false, Bool.false_eq_true]
    exact hgetImage

theorem resetActionStatus_image (hhost : host.Succeeds) (action : TModbusAction) (s : σ) :
    host.image (resetActionStatus host action s) =
      clearLatch (host.image s) (action.latch host) :=
  resetModbusActionStatus_image hhost _ _ _ s

theorem initializeStatus_image (hhost : host.Succeeds) (action : TModbusAction) (s : σ) :
    host.image (initializeStatus host action s) =
      write (setBit (host.image s) (action.latch host).reset false)
        (action.latch host).status [0] := by
  unfold initializeStatus
  simp only [hhost.write_image, hhost.setBit_image]
  rfl

theorem writeErrorMessage_image (hhost : host.Succeeds) (offset : UInt32) (code : UInt8) (s : σ) :
    host.image (writeErrorMessage host offset code s).2 =
      write (host.image s) offset.toNat [code] :=
  hhost.write_image _ _ _

/-! ## The execution of an action -/

/-- A transaction after some calls: nothing outside `W` has changed, and the return value and
`errno` are those of a request, or the ones from before. -/
structure Frame (host : Host σ) (W : ℕ → Prop) (t t' : Transaction σ) : Prop where
  image : ∀ k, ¬ W k → bit (host.image t'.state) k = bit (host.image t.state) k
  reply : t'.len = t.len ∨ ∃ call s, t'.len = (host.modbus call s).1.len ∧
    t'.errno = (host.modbus call s).1.errno

/-- The `switch` changes the data window of the action only. -/
theorem switchFunctionCode_frame (hhost : host.Succeeds) {buffer : List UInt8} {s : σ}
    {t : Transaction σ} (h : switchFunctionCode host action (.start buffer s) = .ok t) :
    Frame host (InDataWindow action) (.start buffer s) t := by
  cases switchFunctionCode_outcome hhost h with
  | silent len image => exact ⟨fun k _ => by rw [image]; rfl, Or.inl len⟩
  | ended call s' replied last =>
    refine ⟨fun k _ => ?_, Or.inr ⟨call, s', replied.len, replied.errno⟩⟩
    rw [last, hhost.modbus_image, replied.image]
    rfl
  | stored call s' replied reads complete image =>
    exact ⟨image, Or.inr ⟨call, s', replied.len, replied.errno⟩⟩

/-- The code of a failed action: `errno`, or its distance to `MODBUS_ENOBASE`. -/
def failureCode (errno : UInt32) : UInt8 :=
  UInt8.ofNat (if errno.toNat ≤ 255 then errno.toNat else errno.toNat - modbusEnobase.toNat)

/-- The values of `errno` after a failed call that fit into the status byte. -/
def ErrnoFits (errno : UInt32) : Prop :=
  1 ≤ errno.toNat ∧ errno.toNat ≤ 255 ∨
    modbusEnobase.toNat + 1 ≤ errno.toNat ∧ errno.toNat ≤ modbusEnobase.toNat + 255

theorem errorCode_eq_failureCode {errno : UInt32} (h : ErrnoFits errno) :
    errorCode errno = failureCode errno := by
  unfold ErrnoFits at h
  have henobase : modbusEnobase.toNat = 112345678 := rfl
  -- the codes of libmodbus lie far above those of the system, so that both tests agree
  rw [errorCode_eq_statusCode]
  unfold statusCode failureCode
  by_cases hle : errno.toNat ≤ 255
  · rw [if_pos hle, if_neg (by omega)]
  · rw [if_neg hle, if_pos (by omega)]

/-- `processModbusAction` changes the data window of the action and, when it returns a negative
number, the status byte. -/
theorem processModbusAction_frame (hhost : host.Succeeds)
    (herrno : ∀ call s, (host.modbus call s).1.len < 0 → ErrnoFits (host.modbus call s).1.errno)
    {buffer : List UInt8} {s : σ} {out : Transaction σ}
    (h : processModbusAction host action buffer s = .ok out) :
    ∃ img, (∀ k, ¬ InDataWindow action k → bit img k = bit (host.image s) k) ∧
      host.image out.state =
        if out.len < 0 then write img (action.latch host).status [failureCode out.errno]
        else img := by
  unfold processModbusAction at h
  obtain ⟨t, hswitch, h⟩ := bind_eq_ok.mp h
  have hframe := switchFunctionCode_frame hhost hswitch
  refine ⟨host.image t.state, hframe.image, ?_⟩
  by_cases hlen : t.len < 0
  · rw [if_pos hlen] at h
    cases h
    have hfits : ErrnoFits t.errno := by
      obtain hzero | ⟨call, s', hlen', herr⟩ := hframe.reply
      · exact absurd (hzero ▸ hlen) (lt_irrefl 0)
      · rw [herr]
        exact herrno call s' (hlen' ▸ hlen)
    simp only [hlen, if_true, errorCode_eq_failureCode hfits]
    exact hhost.write_image _ _ _
  · rw [if_neg hlen] at h
    cases h
    rw [if_neg hlen]

/-! ## The layout of the process image -/

/-- The status byte and the reset bit of the device; the bit is bit 0 of its byte. -/
def deviceLatch (host : Host σ) (config : TModbusMasterConfiguration) : Latch where
  reset := host.bitPosition
    config.tModbusDeviceConfig.i32uDeviceStatusResetByteProcessImageByteOffset.toUInt16 0
  status := config.tModbusDeviceConfig.i32uDeviceStatusByteProcessImageOffset.toNat

/-- Status bytes and reset bits of the actions are separate from each other, from those of the
device, and from the data of all actions. -/
structure Separated (host : Host σ) (config : TModbusMasterConfiguration) : Prop where
  latches : config.mbActionListHead.Pairwise fun a b => (a.latch host).Separate (b.latch host)
  own : ∀ a ∈ config.mbActionListHead, (a.latch host).reset / 8 ≠ (a.latch host).status
  device : ∀ a ∈ config.mbActionListHead, (a.latch host).Separate (deviceLatch host config)
  status_window : ∀ a ∈ config.mbActionListHead, ∀ b ∈ config.mbActionListHead, ∀ k,
    InDataWindow b k → k / 8 ≠ (a.latch host).status
  reset_window : ∀ a ∈ config.mbActionListHead, ∀ b ∈ config.mbActionListHead,
    ¬ InDataWindow b (a.latch host).reset

variable {config : TModbusMasterConfiguration}

theorem Separated.separate (hsep : Separated host config) {i j : ℕ} {a b : TModbusAction}
    (hi : config.mbActionListHead[i]? = some a) (hj : config.mbActionListHead[j]? = some b)
    (hij : i ≠ j) : (a.latch host).Separate (b.latch host) := by
  obtain ⟨hi', rfl⟩ := List.getElem?_eq_some_iff.mp hi
  obtain ⟨hj', rfl⟩ := List.getElem?_eq_some_iff.mp hj
  have hpairs := List.pairwise_iff_getElem.mp hsep.latches
  obtain hlt | hlt := Nat.lt_or_gt_of_ne hij
  · exact hpairs i j hi' hj' hlt
  · exact (hpairs j i hj' hi' hlt).symm

/-- A transfer of data leaves the status bytes alone. -/
theorem Separated.status_eq (hsep : Separated host config) {a b : TModbusAction}
    (ha : a ∈ config.mbActionListHead) (hb : b ∈ config.mbActionListHead) {img img' : Image}
    (h : ∀ k, ¬ InDataWindow b k → bit img' k = bit img k) :
    img' (a.latch host).status = img (a.latch host).status := by
  apply eq_of_bit
  intro k hk
  exact h k fun hwindow => hsep.status_window a ha b hb k hwindow hk

/-! ## The history of a run -/

/-- What happens to the status of the actions in a run: the action at a position fails, or its
reset bit is honoured. -/
inductive StatusEvent
  | failed (action : ℕ) (errno : UInt32)
  | honoured (action : ℕ)
  deriving DecidableEq, Repr

/-- The status of the action at position `i` after a history, the last event first: 0 if it has not
failed since its reset bit was last honoured, otherwise the code of its last failure. -/
def expectedStatus (i : ℕ) : List StatusEvent → UInt8
  | [] => 0
  | .failed j errno :: events => if j = i then failureCode errno else expectedStatus i events
  | .honoured j :: events => if j = i then 0 else expectedStatus i events

/-- The events of one step of a loop. -/
def observe (host : Host σ) (config : TModbusMasterConfiguration) (s : LoopState σ) :
    LoopLabel σ → List StatusEvent
  | .proceed =>
    match s.phase with
    | .reset (i :: _) _ =>
      match config.mbActionListHead[i]? with
      | some action =>
        if bit (host.image s.state) (action.latch host).reset then [.honoured i] else []
      | none => []
    | .process nextEvent =>
      match config.mbActionListHead[nextEvent.ptModbusAction]? with
      | some action =>
        match processModbusAction host action s.buffer s.state with
        | .ok out => if out.len < 0 then [.failed nextEvent.ptModbusAction out.errno] else []
        | .error _ => []
      | none => []
    | _ => []
  | _ => []

/-- A step of a loop together with the history up to it. -/
def observedStep (host : Host σ) (config : TModbusMasterConfiguration)
    (x : LoopState σ × List StatusEvent) (l : LoopLabel σ) :
    Option (LoopState σ × List StatusEvent) :=
  (loopStep host config x.1 l).map fun s => (s, observe host config x.1 l ++ x.2)

/-- What one step can do to the process image, with its events. -/
inductive ImageStep (host : Host σ) (config : TModbusMasterConfiguration) (img : Image) :
    Image → List StatusEvent → Prop
  | user {img' : Image} (h : ∀ a ∈ config.mbActionListHead,
      img' (a.latch host).status = img (a.latch host).status ∧
      (bit img (a.latch host).reset = true → bit img' (a.latch host).reset = true)) :
      ImageStep host config img img' []
  | deviceStatus (code : UInt8) :
      ImageStep host config img (write img (deviceLatch host config).status [code]) []
  | deviceReset : ImageStep host config img (clearLatch img (deviceLatch host config)) []
  | actionReset {i : ℕ} {a : TModbusAction} (h : config.mbActionListHead[i]? = some a) :
      ImageStep host config img (clearLatch img (a.latch host))
        (if bit img (a.latch host).reset then [.honoured i] else [])
  | succeeded {a : TModbusAction} {img' : Image} (ha : a ∈ config.mbActionListHead)
      (h : ∀ k, ¬ InDataWindow a k → bit img' k = bit img k) : ImageStep host config img img' []
  | failed {i : ℕ} {a : TModbusAction} {img' : Image} (errno : UInt32)
      (ha : config.mbActionListHead[i]? = some a)
      (h : ∀ k, ¬ InDataWindow a k → bit img' k = bit img k) :
      ImageStep host config img (write img' (a.latch host).status [failureCode errno])
        [.failed i errno]

theorem imageStep_refl (img : Image) : ImageStep host config img img [] :=
  .user fun _ _ => ⟨rfl, id⟩

theorem connectStep_imageStep (hhost : host.Succeeds) {connected : Bool} {malloc : ℕ → Bool}
    {currentTime : Timespec} {s s' : LoopState σ}
    (h : connectStep host config connected malloc currentTime s = some s') :
    ImageStep host config (host.image s.state) (host.image s'.state) [] := by
  have hdevice : ∀ error, host.image (writeDeviceStatus host config error s.state) =
      write (host.image s.state) (deviceLatch host config).status [error.code] :=
    fun error => writeErrorMessage_image hhost _ _ _
  unfold connectStep at h
  split at h
  · split at h
    · split_ifs at h
      · cases h
        rw [hdevice]
        exact .deviceStatus _
      · cases h
        rw [hdevice]
        exact .deviceStatus _
    · cases h
  · cases h
    rw [hdevice]
    exact .deviceStatus _

/-- Every step of a loop, of either protocol, is one of these. -/
theorem loopStep_imageStep (hhost : host.Succeeds)
    (herrno : ∀ call s, (host.modbus call s).1.len < 0 → ErrnoFits (host.modbus call s).1.errno)
    {s s' : LoopState σ} {l : LoopLabel σ} (h : loopStep host config s l = some s') :
    ImageStep host config (host.image s.state) (host.image s'.state) (observe host config s l) := by
  cases l with
  | connect connected malloc currentTime =>
    simp only [loopStep, Option.ite_none_right_eq_some] at h
    exact connectStep_imageStep hhost h.2
  | user state =>
    simp only [loopStep, Option.ite_none_right_eq_some] at h
    cases h.2
    exact .user h.1
  | proceed =>
    simp only [loopStep] at h
    unfold observe
    cases hphase : s.phase with
    | connect | ended =>
      rw [hphase] at h
      cases h
    | nextEvent =>
      rw [hphase] at h
      simp only at h
      split at h
      · cases h
        exact imageStep_refl _
      · cases h
    | reset pending nextEvent =>
      rw [hphase] at h
      cases pending with
      | nil =>
        cases h
        simp only [resetModbusMasterStatus, resetModbusActionStatus_image hhost]
        exact .deviceReset
      | cons i pending =>
        simp only at h ⊢
        cases haction : config.mbActionListHead[i]? with
        | none =>
          rw [haction] at h
          cases h
        | some action =>
          rw [haction] at h
          cases h
          simp only [resetActionStatus_image hhost]
          exact .actionReset haction
    | process nextEvent =>
      rw [hphase] at h
      simp only at h ⊢
      cases haction : config.mbActionListHead[nextEvent.ptModbusAction]? with
      | none =>
        rw [haction] at h
        cases h
      | some action =>
        rw [haction] at h
        simp only [processStep] at h ⊢
        cases hprocess : processModbusAction host action s.buffer s.state with
        | error fault =>
          rw [hprocess] at h
          cases h
        | ok out =>
          rw [hprocess] at h
          cases h
          obtain ⟨img, hframe, himage⟩ := processModbusAction_frame hhost herrno hprocess
          simp only [himage]
          by_cases hlen : out.len < 0
          · simp only [hlen, if_true]
            exact .failed _ haction hframe
          · simp only [hlen, if_false]
            exact .succeeded (List.mem_of_getElem? haction) hframe

/-! ## The latches -/

/-- The status bytes after a history. -/
def StatusInv (host : Host σ) (config : TModbusMasterConfiguration) (img : Image)
    (history : List StatusEvent) : Prop :=
  ∀ i a, config.mbActionListHead[i]? = some a → img (a.latch host).status = expectedStatus i history

theorem ImageStep.statusInv (hsep : Separated host config) {img img' : Image}
    {events history : List StatusEvent} (hstep : ImageStep host config img img' events)
    (h : StatusInv host config img history) : StatusInv host config img' (events ++ history) := by
  intro i a hi
  have ha := List.mem_of_getElem? hi
  cases hstep with
  | user huser => exact (huser a ha).1.trans (h i a hi)
  | deviceStatus code =>
    rw [write_singleton, if_neg (hsep.device a ha).status_ne]
    exact h i a hi
  | deviceReset =>
    rw [clearLatch_of_ne (hsep.device a ha).status_ne (hsep.device a ha).status_reset.symm]
    exact h i a hi
  | @actionReset j b hj =>
    by_cases hij : j = i
    · obtain rfl : b = a := Option.some.inj (hj.symm.trans (hij ▸ hi))
      refine (clearLatch_status (hsep.own b ha)).trans ?_
      by_cases hbit : bit img (b.latch host).reset = true
      · rw [if_pos hbit, if_pos hbit]
        simp [expectedStatus, hij]
      · rw [if_neg hbit, if_neg hbit]
        exact h i b hi
    · have hne := hsep.separate hj hi hij
      rw [clearLatch_of_ne hne.status_ne.symm hne.reset_status.symm, h i a hi]
      split_ifs <;> simp [expectedStatus, hij]
  | succeeded hb hframe =>
    rw [hsep.status_eq ha hb hframe]
    exact h i a hi
  | @failed j b img'' errno hj hframe =>
    have hb := List.mem_of_getElem? hj
    by_cases hij : j = i
    · obtain rfl : b = a := Option.some.inj (hj.symm.trans (hij ▸ hi))
      rw [write_singleton, if_pos rfl]
      simp [expectedStatus, hij]
    · rw [write_singleton, if_neg (hsep.separate hj hi hij).status_ne.symm,
        hsep.status_eq ha hb hframe, h i a hi]
      simp [expectedStatus, hij]

/-- A reset bit is taken back only together with the status byte. -/
theorem ImageStep.reset (hsep : Separated host config) {img img' : Image}
    {events : List StatusEvent} (hstep : ImageStep host config img img' events) {a : TModbusAction}
    (ha : a ∈ config.mbActionListHead) (hset : bit img (a.latch host).reset = true)
    (hclear : bit img' (a.latch host).reset = false) : img' (a.latch host).status = 0 := by
  obtain ⟨i, hi⟩ := List.getElem?_of_mem ha
  cases hstep with
  | user huser => exact absurd ((huser a ha).2 hset) (by rw [hclear]; exact Bool.false_ne_true)
  | deviceStatus code =>
    rw [bit_congr ((write_singleton _ _ _).trans (if_neg (hsep.device a ha).reset_status)), hset]
      at hclear
    cases hclear
  | deviceReset =>
    rw [bit_clearLatch_of_separate (hsep.device a ha).symm, hset] at hclear
    cases hclear
  | @actionReset j b hj =>
    by_cases hij : j = i
    · obtain rfl : b = a := Option.some.inj (hj.symm.trans (hij ▸ hi))
      exact (clearLatch_status (hsep.own b ha)).trans (if_pos hset)
    · rw [bit_clearLatch_of_separate (hsep.separate hj hi hij), hset] at hclear
      cases hclear
  | succeeded hb hframe =>
    rw [hframe _ (hsep.reset_window a ha _ hb), hset] at hclear
    cases hclear
  | @failed j b img'' errno hj hframe =>
    have hb := List.mem_of_getElem? hj
    have hother : (a.latch host).reset / 8 ≠ (b.latch host).status := by
      by_cases hij : j = i
      · obtain rfl : b = a := Option.some.inj (hj.symm.trans (hij ▸ hi))
        exact hsep.own b ha
      · exact (hsep.separate hj hi hij).status_reset
    rw [bit_congr ((write_singleton _ _ _).trans (if_neg hother)),
      hframe _ (hsep.reset_window a ha _ hb), hset] at hclear
    cases hclear

/-- The parser leaves all status bytes 0. -/
theorem statusInv_start (hhost : host.Succeeds) (hsep : Separated host config) (state : σ) :
    StatusInv host config (host.image (LoopState.start host config state).state) [] := by
  intro i a hi
  have ha := List.mem_of_getElem? hi
  have hpairs := hsep.latches
  show host.image (config.mbActionListHead.reverse.foldl _ state) _ = 0
  rw [List.foldl_reverse]
  generalize config.mbActionListHead = actions at ha hpairs
  induction actions with
  | nil => cases ha
  | cons b actions ih =>
    rw [List.pairwise_cons] at hpairs
    rw [List.foldr_cons, initializeStatus_image hhost, write_singleton]
    by_cases hab : (a.latch host).status = (b.latch host).status
    · rw [if_pos hab]
    · rw [if_neg hab]
      have ha' : a ∈ actions := by
        obtain rfl | hmem := List.mem_cons.mp ha
        · exact absurd rfl hab
        · exact hmem
      rw [setBit_of_div_ne (hpairs.1 a ha').reset_status.symm]
      exact ih ha' hpairs.2

/-- The latches that a sweep over a list of events visits. -/
def sweepLatches (host : Host σ) (actions : List TModbusAction) (eventList : List SchedulerEvent) :
    List Latch :=
  eventList.filterMap fun pEvent => actions[pEvent.ptModbusAction]?.map fun a => a.latch host

theorem sweepStatus_image (hhost : host.Succeeds) (actions : List TModbusAction)
    (eventList : List SchedulerEvent) (s : σ) :
    host.image (sweepStatus host actions eventList s) =
      clearLatches (host.image s) (sweepLatches host actions eventList) := by
  unfold sweepStatus sweepLatches clearLatches
  induction eventList generalizing s with
  | nil => rfl
  | cons pEvent eventList ih =>
    rw [List.foldl_cons, ih]
    cases haction : actions[pEvent.ptModbusAction]? with
    | none => rw [List.filterMap_cons_none (by rw [haction]; rfl)]
    | some a =>
      rw [List.filterMap_cons_some (by rw [haction]; rfl), List.foldl_cons]
      simp only [resetActionStatus_image hhost]

/-- The resets of one pass of a loop, without the user in between, are a sweep. -/
theorem run_reset_eq_sweep {eventList : List SchedulerEvent}
    (hactions : ∀ pEvent ∈ eventList, pEvent.ptModbusAction < config.mbActionListHead.length)
    (nextEvent : TModbusEvent) (s : LoopState σ) :
    run (loopStep host config)
      { s with phase := .reset (eventList.map SchedulerEvent.ptModbusAction) nextEvent }
      (List.replicate eventList.length .proceed) =
    some { s with
      phase := .reset [] nextEvent
      state := sweepStatus host config.mbActionListHead eventList s.state } := by
  induction eventList generalizing s with
  | nil => rfl
  | cons pEvent eventList ih =>
    rw [List.forall_mem_cons] at hactions
    have haction := List.getElem?_eq_getElem hactions.1
    rw [List.length_cons, List.replicate_succ]
    simp only [run, List.map_cons, loopStep, haction, Option.bind_some]
    refine (ih hactions.2 { s with state := resetActionStatus host _ s.state }).trans ?_
    unfold sweepStatus
    rw [List.foldl_cons]
    simp only [haction]

/-- A sweep has the same effect for every order of the events. -/
theorem sweepStatus_perm (hhost : host.Succeeds) (hsep : Separated host config)
    {eventList eventList' : List SchedulerEvent} (hperm : eventList.Perm eventList') (s : σ) :
    host.image (sweepStatus host config.mbActionListHead eventList s) =
      host.image (sweepStatus host config.mbActionListHead eventList' s) := by
  rw [sweepStatus_image hhost, sweepStatus_image hhost]
  refine clearLatches_perm (hperm.filterMap _) (fun l hl l' hl' hne => ?_) _
  simp only [List.mem_filterMap, Option.map_eq_some_iff] at hl hl'
  obtain ⟨pEvent, -, a, ha, rfl⟩ := hl
  obtain ⟨pEvent', -, b, hb, rfl⟩ := hl'
  refine hsep.separate ha hb fun hij => hne ?_
  rw [hij, hb] at ha
  cases ha
  rfl

/-- Reset bits are taken back only together with their status bytes. -/
def ResetTogether (host : Host σ) (config : TModbusMasterConfiguration) (img img' : Image) : Prop :=
  ∀ a ∈ config.mbActionListHead, bit img (a.latch host).reset = true →
    bit img' (a.latch host).reset = false → img' (a.latch host).status = 0

/-- **The status bytes of a master.** In every run of the TCP or the RTU loop, with the user
setting reset bits between any two steps, the status byte of every action is the one that the
history asks for: 0 if the action has not failed since its reset bit was last honoured, otherwise
the code of its last failure. A reset bit goes from 1 to 0 only together with its status byte, and
the sweep of the RTU loop has the same effect for every order of the event list. -/
theorem statusLatch_run (hhost : host.Succeeds)
    (herrno : ∀ call s, (host.modbus call s).1.len < 0 → ErrnoFits (host.modbus call s).1.errno)
    (hsep : Separated host config) (state : σ) (labels : List (LoopLabel σ)) :
    Throughout (observedStep host config)
      (fun x => StatusInv host config (host.image x.1.state) x.2)
      (.start host config state, []) labels ∧
    Along (observedStep host config)
      (fun x l => ∀ x', observedStep host config x l = some x' →
        ResetTogether host config (host.image x.1.state) (host.image x'.1.state))
      (.start host config state, []) labels ∧
    ∀ (eventList eventList' : List SchedulerEvent) (s : σ), eventList.Perm eventList' →
      host.image (sweepStatus host config.mbActionListHead eventList s) =
        host.image (sweepStatus host config.mbActionListHead eventList' s) := by
  have hstep : ∀ (x : LoopState σ × List StatusEvent) l x', observedStep host config x l = some x' →
      ∃ events, x'.2 = events ++ x.2 ∧
        ImageStep host config (host.image x.1.state) (host.image x'.1.state) events := by
    intro x l x' hx
    obtain ⟨s', hloop, rfl⟩ := Option.map_eq_some_iff.mp hx
    exact ⟨_, rfl, loopStep_imageStep hhost herrno hloop⟩
  refine ⟨?_, ?_, fun _ _ s hperm => sweepStatus_perm hhost hsep hperm s⟩
  · refine throughout_of_invariant ?_ ?_ labels
    · intro x l x' hinv hx
      obtain ⟨events, hhistory, himage⟩ := hstep x l x' hx
      rw [hhistory]
      exact himage.statusInv hsep hinv
    · exact statusInv_start hhost hsep state
  · refine along_of_step ?_ _ labels
    intro x l _ _ x' hx a ha hset hclear
    obtain ⟨events, -, himage⟩ := hstep x l x' hx
    exact himage.reset hsep ha hset hclear

/-! ## Two actions -/

/-- Two reads of one register each, with their status bytes at 10 and 11 and their reset bits in
byte 12; the status byte of the device is byte 13, its reset byte is byte 14. -/
def twoReadsConfig : TModbusMasterConfiguration where
  tModbusDeviceConfig := {
    uProt := .tTcpConfig
      { szTcpIpAddress := "10.0.0.2".toList, i32uPort := 502, maxModbusConnections := 0 }
    i32uDeviceStatusByteProcessImageOffset := 13
    i32uDeviceStatusResetByteProcessImageByteOffset := 14 }
  i32ActionCount := 2
  mbActionListHead := [
    { i16uActionID := 1, i8uSlaveAddress := 1, eFunctionCode := .readHoldingRegisters
      i32uStartRegister := 1, i16uRegisterCount := 1, i32uIntervalUs := 1000000
      i32uStartByteProcessData := 0, i8uStartBitProcessData := 0
      i32uStatusByteProcessImageOffset := 10, i32uResetStatusProcessImageByteOffset := 12
      i8uResetStatusProcessImageBitOffset := 0 },
    { i16uActionID := 2, i8uSlaveAddress := 1, eFunctionCode := .readHoldingRegisters
      i32uStartRegister := 2, i16uRegisterCount := 1, i32uIntervalUs := 1000000
      i32uStartByteProcessData := 2, i8uStartBitProcessData := 0
      i32uStatusByteProcessImageOffset := 11, i32uResetStatusProcessImageByteOffset := 12
      i8uResetStatusProcessImageBitOffset := 1 }]

/-- A device that never answers: every request times out. -/
def silentHost : Host Image := imageHost fun _ => { len := -1, errno := 110, data := [] }

theorem silentHost_succeeds : silentHost.Succeeds := imageHost_succeeds fun c => by simp

theorem silentHost_errno (call : ModbusCall) (s : Image) :
    ErrnoFits (silentHost.modbus call s).1.errno := by
  show ErrnoFits 110
  exact Or.inl ⟨by decide, by decide⟩

theorem twoReadsConfig_separated : Separated silentHost twoReadsConfig where
  latches := by
    refine List.Pairwise.cons (fun b hb => ?_) (List.pairwise_singleton _ _)
    obtain rfl := List.mem_singleton.mp hb
    exact ⟨by decide, by decide, by decide, by decide⟩
  own := by decide
  device a ha := by
    simp only [twoReadsConfig, List.mem_cons, List.not_mem_nil, or_false] at ha
    obtain rfl | rfl := ha <;> exact ⟨by decide, by decide, by decide, by decide⟩
  status_window a ha b hb k hk := by
    simp only [twoReadsConfig, List.mem_cons, List.not_mem_nil, or_false] at ha hb
    obtain rfl | rfl := ha <;> obtain rfl | rfl := hb <;>
      simp [InDataWindow, TModbusAction.latch] at hk ⊢ <;> omega
  reset_window a ha b hb := by
    simp only [twoReadsConfig, List.mem_cons, List.not_mem_nil, or_false] at ha hb
    obtain rfl | rfl := ha <;> obtain rfl | rfl := hb <;>
      simp [InDataWindow, TModbusAction.latch, silentHost, imageHost]

/-- The first action is executed once and fails. -/
def firstPass : List (LoopLabel Image) :=
  [.connect true (fun _ => true) ⟨0, 0⟩, .proceed, .proceed, .proceed, .proceed]

theorem statusLatch_run_twoReads :
    Throughout (observedStep silentHost twoReadsConfig)
      (fun x => StatusInv silentHost twoReadsConfig (silentHost.image x.1.state) x.2)
      (.start silentHost twoReadsConfig (fun _ => 0), []) firstPass :=
  (statusLatch_run silentHost_succeeds (fun call s _ => silentHost_errno call s)
    twoReadsConfig_separated (fun _ => 0) firstPass).1

end RevPiModbus
