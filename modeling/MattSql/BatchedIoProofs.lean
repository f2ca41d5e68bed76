import MattSql.Library.RunProofs
import MattSql.PlatformRuntimeProofs

/-! # Batched I/O over whole runs

    Callers submit batches and poll for completions in any order, and write to
    their own memory in between.  `IoReference` says what they may expect: it
    executes the requests of accepted batches one by one, in the order of
    submission, and notes one completion for each.

    The runtime is compared with the reference after every run.  The reference
    is replayed from the calls and their replies alone. -/

namespace MattSql

open ByteSpan

/-! ## Calls -/

/-- What the callers do. -/
inductive IoCall where
  | submitIoBatch (requests : List IoRequest)
  | pollIoCompletions (size : Nat)
  | callerWrites (memory : Memory)

inductive IoReply where
  | submission (result : Result IoSubmissionResult)
  | polled (result : Result (List IoCompletion))
  | done

/-- The runtime and the memory of its callers. -/
structure IoWorld where
  runtime : HostedPlatformRuntime
  memory : Memory

def ioStep (world : IoWorld) : IoCall → IoReply × IoWorld
  | .submitIoBatch requests =>
    let (result, runtime, memory) := world.runtime.submitIoBatch world.memory requests
    (.submission result, ⟨runtime, memory⟩)
  | .pollIoCompletions size =>
    let (result, runtime) := world.runtime.pollIoCompletions size
    (.polled result, { world with runtime })
  | .callerWrites memory => (.done, { world with memory })

/-! ## The reference -/

/-- The device lets the request through: it is valid, the range is made of
    whole blocks and lies inside. -/
structure MemoryBlockDevice.Admits (device : MemoryBlockDevice) (offset length : Nat) : Prop where
  valid : device.valid = true
  offsetAligned : device.blockSize ∣ offset
  lengthAligned : device.blockSize ∣ length
  inside : offset + length ≤ device.sizeBytes

/-- A request succeeds: its length is in bounds and the device lets it
    through.  Only a flush may be empty. -/
def IoRequest.Succeeds (request : IoRequest) (device : MemoryBlockDevice) : Prop :=
  (request.operation = .flush ∨
      (0 < effectiveRequestLength request ∧ effectiveRequestLength request ≤ request.buffer.size))
    ∧ effectiveRequestLength request ≤ kHostedMaxIoRequestSize
    ∧ device.Admits request.offset (effectiveRequestLength request)

instance (device : MemoryBlockDevice) (offset length : Nat) :
    Decidable (device.Admits offset length) :=
  decidable_of_iff (device.valid = true ∧ device.blockSize ∣ offset ∧ device.blockSize ∣ length
      ∧ offset + length ≤ device.sizeBytes)
    ⟨fun h => ⟨h.1, h.2.1, h.2.2.1, h.2.2.2⟩,
      fun h => ⟨h.valid, h.offsetAligned, h.lengthAligned, h.inside⟩⟩

instance (request : IoRequest) (device : MemoryBlockDevice) :
    Decidable (request.Succeeds device) :=
  inferInstanceAs (Decidable ((_ ∨ _) ∧ _ ∧ _))

/-- What a caller reads off a completion. -/
structure ExpectedCompletion where
  id : Nat
  userData : Nat
  succeeded : Bool
  bytesTransferred : Nat
  deriving DecidableEq

def IoCompletion.seen (completion : IoCompletion) : ExpectedCompletion :=
  { id := completion.id
    userData := completion.userData
    succeeded := completion.status = .ok ()
    bytesTransferred := completion.bytesTransferred }

/-- The requests executed so far. -/
structure IoReference where
  device : Option MemoryBlockDevice
  memory : Memory
  /-- How many requests had an id assigned. -/
  assigned : Nat := 0
  /-- One completion for each request of an accepted batch. -/
  expected : List ExpectedCompletion := []
  /-- The completions the callers got. -/
  handedOut : List IoCompletion := []

/-- Whether a request succeeds now. -/
def IoReference.succeeds (reference : IoReference) (request : IoRequest) : Bool :=
  reference.device.any fun device => request.Succeeds device

/-- The device after one request. -/
def IoReference.deviceAfter (reference : IoReference) (request : IoRequest) :
    Option MemoryBlockDevice :=
  reference.device.map fun device =>
    if request.operation = .write ∧ reference.succeeds request then
      { device with
        data := splice device.data request.offset
          (reference.memory.load request.buffer.data (effectiveRequestLength request)) }
    else device

/-- The memory of the callers after one request. -/
def IoReference.memoryAfter (reference : IoReference) (request : IoRequest) : Memory :=
  match reference.device with
  | none => reference.memory
  | some device =>
    if request.operation = .read ∧ reference.succeeds request then
      reference.memory.store request.buffer.data
        (slice device.data request.offset (effectiveRequestLength request))
    else reference.memory

/-- One request: its own id or the next assigned one, its `userData`, and the
    bytes of a successful transfer. -/
def IoReference.execute (reference : IoReference) (request : IoRequest) : IoReference :=
  { reference with
    device := reference.deviceAfter request
    memory := reference.memoryAfter request
    assigned := if request.id = 0 then reference.assigned + 1 else reference.assigned
    expected := reference.expected ++ [
      { id := if request.id = 0 then (reference.assigned + 1) % 2 ^ 64 else request.id
        userData := request.userData
        succeeded := reference.succeeds request
        bytesTransferred :=
          if reference.succeeds request ∧ request.operation ≠ .flush then
            effectiveRequestLength request
          else 0 }] }

/-- What the reference makes of a call and its reply. -/
def IoReference.track (reference : IoReference) : IoCall × IoReply → IoReference
  | (.submitIoBatch requests, .submission (.ok _)) =>
    requests.foldl IoReference.execute reference
  | (.pollIoCompletions _, .polled (.ok completions)) =>
    { reference with handedOut := reference.handedOut ++ completions }
  | (.callerWrites memory, _) => { reference with memory }
  | _ => reference

/-! ## One request -/

theorem MemoryBlockDevice.validateAccess_ok_iff {device : MemoryBlockDevice} {offset length : Nat} :
    device.validateAccess offset length = .ok () ↔ device.Admits offset length := by
  rw [MemoryBlockDevice.validateAccess, guard_ok_iff, guard_ok_iff, guard_ok_iff, guard_ok_iff]
  constructor
  · rintro ⟨hvalid, haligned, hstart, hend, -⟩
    have hvalid : device.valid = true := by
      simpa using hvalid
    have hoffset : offset % device.blockSize = 0 := by
      by_contra hne
      exact haligned (.inl hne)
    have hlength : length % device.blockSize = 0 := by
      by_contra hne
      exact haligned (.inr hne)
    exact ⟨hvalid, Nat.dvd_of_mod_eq_zero hoffset, Nat.dvd_of_mod_eq_zero hlength, by omega⟩
  · rintro ⟨hvalid, hoffset, hlength, hinside⟩
    have hoffset := Nat.mod_eq_zero_of_dvd hoffset
    have hlength := Nat.mod_eq_zero_of_dvd hlength
    refine ⟨?_, ?_, by omega, by omega, rfl⟩
    · rw [hvalid]
      exact Bool.true_eq_false.mp
    · rintro (hne | hne)
      · exact hne hoffset
      · exact hne hlength

theorem validateBufferedIoRequest_ok_iff {request : IoRequest} {length : Nat} :
    validateBufferedIoRequest request length = .ok ()
      ↔ 0 < length ∧ length ≤ request.buffer.size ∧ length ≤ kHostedMaxIoRequestSize := by
  rw [validateBufferedIoRequest, guard_ok_iff, guard_ok_iff, guard_ok_iff]
  constructor
  · rintro ⟨hpos, hbuffer, hmax, -⟩
    omega
  · rintro ⟨hpos, hbuffer, hmax⟩
    exact ⟨by omega, by omega, by omega, rfl⟩

/-- The device, the memory and the outcome that the reference has for one
    request are those of the runtime. -/
structure IoReference.Agrees (reference : IoReference) (request : IoRequest)
    (status : Result Unit) (bytesTransferred : Nat) (device : MemoryBlockDevice)
    (memory : Memory) : Prop where
  status : decide (status = .ok ()) = reference.succeeds request
  bytesTransferred : bytesTransferred
    = if reference.succeeds request ∧ request.operation ≠ .flush then
        effectiveRequestLength request
      else 0
  device : reference.deviceAfter request = some device
  memory : reference.memoryAfter request = memory

/-- A request that fails changes nothing. -/
theorem IoReference.agrees_failed {reference : IoReference} {request : IoRequest}
    {device : MemoryBlockDevice} (hdevice : reference.device = some device)
    (hfails : ¬ request.Succeeds device) (st : Status) :
    reference.Agrees request (.error st) 0 device reference.memory := by
  have hsucceeds : reference.succeeds request = false := by
    rw [IoReference.succeeds, hdevice, Option.any_some, decide_eq_false hfails]
  refine ⟨?_, ?_, ?_, ?_⟩
  · rw [hsucceeds]
    rfl
  · rw [hsucceeds, if_neg (fun h => Bool.false_ne_true h.1)]
  · rw [IoReference.deviceAfter, hdevice, Option.map_some, hsucceeds,
      if_neg (fun h => Bool.false_ne_true h.2)]
  · rw [IoReference.memoryAfter, hdevice, hsucceeds]
    exact if_neg (fun h => Bool.false_ne_true h.2)

/-- The switch of the second loop does what the reference does. -/
theorem executeIoRequest_agrees {reference : IoReference} {request : IoRequest}
    {device : MemoryBlockDevice} (hdevice : reference.device = some device)
    (hknown : request.operation ≠ .unknown) :
    ∃ status bytesTransferred device' memory',
      executeIoRequest device reference.memory request
        = some (status, bytesTransferred, device', memory')
      ∧ reference.Agrees request status bytesTransferred device' memory' := by
  rw [executeIoRequest]
  by_cases hsucceeds : request.Succeeds device
  · obtain ⟨hbuffered, hmax, hadmits⟩ := hsucceeds
    have haccess := MemoryBlockDevice.validateAccess_ok_iff.mpr hadmits
    have htrue : reference.succeeds request = true := by
      rw [IoReference.succeeds, hdevice, Option.any_some]
      exact decide_eq_true ⟨hbuffered, hmax, hadmits⟩
    -- a read or a write has passed the checks on its buffer
    have hvalid : request.operation ≠ .flush →
        validateBufferedIoRequest request (effectiveRequestLength request) = .ok () := by
      intro hflush
      obtain ⟨hpos, hbuffer⟩ := hbuffered.resolve_left hflush
      exact validateBufferedIoRequest_ok_iff.mpr ⟨hpos, hbuffer, hmax⟩
    cases hop : request.operation with
    | read =>
        rw [hvalid (by rw [hop]; decide)]
        dsimp only [MemoryBlockDevice.read]
        rw [haccess]
        refine ⟨_, _, _, _, rfl, ?_, ?_, ?_, ?_⟩
        · rw [htrue]
          rfl
        · rw [if_pos ⟨htrue, by rw [hop]; decide⟩]
        · rw [IoReference.deviceAfter, hdevice, hop]
          rfl
        · rw [IoReference.memoryAfter, hdevice]
          exact if_pos ⟨hop, htrue⟩
    | write =>
        rw [hvalid (by rw [hop]; decide)]
        dsimp only [MemoryBlockDevice.write]
        rw [haccess]
        refine ⟨_, _, _, _, rfl, ?_, ?_, ?_, ?_⟩
        · rw [htrue]
          rfl
        · rw [if_pos ⟨htrue, by rw [hop]; decide⟩]
        · rw [IoReference.deviceAfter, hdevice, Option.map_some, if_pos ⟨hop, htrue⟩]
        · rw [IoReference.memoryAfter, hdevice, hop]
          rfl
    | flush =>
        dsimp only
        rw [if_neg (by omega), MemoryBlockDevice.flush, haccess]
        refine ⟨_, _, _, _, rfl, ?_, ?_, ?_, ?_⟩
        · rw [htrue]
          rfl
        · rw [if_neg (fun h => h.2 hop)]
        · rw [IoReference.deviceAfter, hdevice, hop]
          rfl
        · rw [IoReference.memoryAfter, hdevice, hop]
          rfl
    | unknown => exact absurd hop hknown
  · have hfailed := IoReference.agrees_failed hdevice hsucceeds
    -- a read or a write that passes both checks would have succeeded
    have hrefused : request.operation ≠ .flush →
        validateBufferedIoRequest request (effectiveRequestLength request) = .ok () →
        ∃ st, device.validateAccess request.offset (effectiveRequestLength request)
          = .error st := by
      intro hflush hvalid
      cases haccess : device.validateAccess request.offset (effectiveRequestLength request) with
      | error st => exact ⟨st, rfl⟩
      | ok done =>
          obtain ⟨hpos, hbuffer, hmax⟩ := validateBufferedIoRequest_ok_iff.mp hvalid
          exact absurd ⟨.inr ⟨hpos, hbuffer⟩, hmax,
            MemoryBlockDevice.validateAccess_ok_iff.mp haccess⟩ hsucceeds
    cases hop : request.operation with
    | read =>
        cases hvalid : validateBufferedIoRequest request (effectiveRequestLength request) with
        | error st => exact ⟨_, _, _, _, rfl, hfailed st⟩
        | ok done =>
            obtain ⟨st, haccess⟩ := hrefused (by rw [hop]; decide) hvalid
            dsimp only [MemoryBlockDevice.read]
            rw [haccess]
            exact ⟨_, _, _, _, rfl, hfailed st⟩
    | write =>
        cases hvalid : validateBufferedIoRequest request (effectiveRequestLength request) with
        | error st => exact ⟨_, _, _, _, rfl, hfailed st⟩
        | ok done =>
            obtain ⟨st, haccess⟩ := hrefused (by rw [hop]; decide) hvalid
            dsimp only [MemoryBlockDevice.write]
            rw [haccess]
            exact ⟨_, _, _, _, rfl, hfailed st⟩
    | flush =>
        dsimp only
        by_cases hmax : effectiveRequestLength request > kHostedMaxIoRequestSize
        · rw [if_pos hmax]
          exact ⟨_, _, _, _, rfl, hfailed _⟩
        rw [if_neg hmax, MemoryBlockDevice.flush]
        cases haccess : device.validateAccess request.offset (effectiveRequestLength request) with
        | error st => exact ⟨_, _, _, _, rfl, hfailed st⟩
        | ok done =>
            exact absurd ⟨.inl hop, Nat.le_of_not_lt hmax,
              MemoryBlockDevice.validateAccess_ok_iff.mp haccess⟩ hsucceeds
    | unknown => exact absurd hop hknown

/-! ## One batch -/

/-- The id of a request: its own or the next assigned one. -/
def HostedPlatformRuntime.requestId (runtime : HostedPlatformRuntime) (request : IoRequest) : Nat :=
  if request.id = 0 then runtime.nextIoRequestId else request.id

/-- The counter after a request. -/
def HostedPlatformRuntime.nextAfter (runtime : HostedPlatformRuntime) (request : IoRequest) : Nat :=
  if request.id = 0 then (runtime.nextIoRequestId + 1) % 2 ^ 64 else runtime.nextIoRequestId

/-- One round of the second loop. -/
def IoWorld.serve (world : IoWorld) (request : IoRequest) : IoWorld :=
  match world.runtime.blockDevice with
  | none =>
    { world with
      runtime :=
        { blockDevice := none
          nextIoRequestId := world.runtime.nextAfter request
          completions := world.runtime.completions ++ [
            { id := world.runtime.requestId request
              status := errorResult .notSupported (ascii "hosted runtime has no block device")
              bytesTransferred := 0
              userData := request.userData }] } }
  | some device =>
    match executeIoRequest device world.memory request with
    | none => world
    | some (status, bytesTransferred, device, memory) =>
      { memory
        runtime :=
          { blockDevice := some device
            nextIoRequestId := world.runtime.nextAfter request
            completions := world.runtime.completions ++ [
              { id := world.runtime.requestId request, status, bytesTransferred
                userData := request.userData }] } }

/-- The second loop never takes its early return when the first loop let the
    batch pass: it serves the requests one after the other. -/
theorem HostedPlatformRuntime.executeIoRequests_eq (requests : List IoRequest)
    (hknown : ∀ request ∈ requests, request.operation ≠ .unknown) (world : IoWorld)
    (submission : IoSubmissionResult) (index : Nat) :
    ∃ submission', world.runtime.executeIoRequests world.memory submission index requests
        = (.ok submission', (requests.foldl IoWorld.serve world).runtime,
            (requests.foldl IoWorld.serve world).memory)
      ∧ submission'.submittedCount = submission.submittedCount
      ∧ submission'.firstRequestId
        = if index = 0 then
            (requests.head?.map world.runtime.requestId).getD submission.firstRequestId
          else submission.firstRequestId := by
  induction requests generalizing world submission index with
  | nil =>
      refine ⟨submission, rfl, rfl, ?_⟩
      split <;> rfl
  | cons request rest ih =>
      have hrest : ∀ request ∈ rest, request.operation ≠ .unknown :=
        fun other hother => hknown other (List.mem_cons_of_mem _ hother)
      have hfirst : ∀ submission' : IoSubmissionResult, submission'.firstRequestId
          = (if index = 0 then { submission with firstRequestId := world.runtime.requestId request }
              else submission).firstRequestId →
          submission'.firstRequestId = if index = 0 then
              ((request :: rest).head?.map world.runtime.requestId).getD submission.firstRequestId
            else submission.firstRequestId := by
        intro submission' hfirst
        rw [hfirst]
        split <;> rfl
      obtain ⟨submission', hloop, hcount, hid⟩ := ih hrest (world.serve request)
        (if index = 0 then { submission with firstRequestId := world.runtime.requestId request }
          else submission) (index + 1)
      rw [if_neg (Nat.succ_ne_zero index)] at hid
      refine ⟨submission', ?_, ?_, hfirst submission' hid⟩
      · rw [List.foldl_cons, ← hloop, HostedPlatformRuntime.executeIoRequests]
        have hdevice : (if request.id = 0 then
            { world.runtime with nextIoRequestId := (world.runtime.nextIoRequestId + 1) % 2 ^ 64 }
            else world.runtime)
            = { world.runtime with nextIoRequestId := world.runtime.nextAfter request } := by
          rw [HostedPlatformRuntime.nextAfter]
          split <;> rfl
        dsimp only
        rw [hdevice, IoWorld.serve]
        cases hblock : world.runtime.blockDevice with
        | none => rfl
        | some device =>
            dsimp only
            cases hexecute : executeIoRequest device world.memory request with
            | none =>
                -- only the default case of the switch returns early
                have hagrees := @executeIoRequest_agrees ⟨some device, world.memory, 0, [], []⟩
                  request device rfl (hknown request List.mem_cons_self)
                obtain ⟨_, _, _, _, hsome, -⟩ := hagrees
                rw [hexecute] at hsome
                cases hsome
            | some outcome => rfl
      · rw [hcount]
        split <;> rfl

/-- The runtime is where the reference is. -/
structure IoWorld.Follows (world : IoWorld) (reference : IoReference) : Prop where
  device : world.runtime.blockDevice = reference.device
  memory : world.memory = reference.memory
  counter : world.runtime.nextIoRequestId = (reference.assigned + 1) % 2 ^ 64
  completions : (reference.handedOut ++ world.runtime.completions).map IoCompletion.seen
    = reference.expected

/-- What one round leaves: the device and the memory of the reference, and one
    more completion at the end of the queue. -/
theorem IoWorld.serve_eq {world : IoWorld} {reference : IoReference}
    (hfollows : world.Follows reference) {request : IoRequest}
    (hknown : request.operation ≠ .unknown) :
    ∃ status, decide (status = .ok ()) = reference.succeeds request
      ∧ world.serve request =
        { memory := reference.memoryAfter request
          runtime :=
            { blockDevice := reference.deviceAfter request
              nextIoRequestId := world.runtime.nextAfter request
              completions := world.runtime.completions ++ [
                { id := world.runtime.requestId request
                  status
                  bytesTransferred :=
                    if reference.succeeds request ∧ request.operation ≠ .flush then
                      effectiveRequestLength request
                    else 0
                  userData := request.userData }] } } := by
  rw [IoWorld.serve, hfollows.device, hfollows.memory]
  cases hdevice : reference.device with
  | none =>
      -- without a device every request fails
      have hfails : reference.succeeds request = false := by
        rw [IoReference.succeeds, hdevice]
        rfl
      refine ⟨errorResult .notSupported (ascii "hosted runtime has no block device"), ?_, ?_⟩
      · rw [hfails]
        rfl
      · rw [hfails, IoReference.memoryAfter, IoReference.deviceAfter, hdevice]
        rfl
  | some device =>
      obtain ⟨status, bytesTransferred, device', memory', hexecute, hagrees⟩ :=
        executeIoRequest_agrees hdevice hknown
      refine ⟨status, hagrees.status, ?_⟩
      dsimp only
      rw [hexecute, hagrees.device, hagrees.memory, ← hagrees.bytesTransferred]

/-- One round follows the reference. -/
theorem IoWorld.Follows.serve {world : IoWorld} {reference : IoReference}
    (hfollows : world.Follows reference) {request : IoRequest}
    (hknown : request.operation ≠ .unknown) :
    (world.serve request).Follows (reference.execute request) := by
  obtain ⟨status, hstatus, heq⟩ := IoWorld.serve_eq hfollows hknown
  rw [heq]
  refine ⟨rfl, rfl, ?_, ?_⟩
  · show world.runtime.nextAfter request = _
    rw [HostedPlatformRuntime.nextAfter, hfollows.counter, IoReference.execute]
    split
    · dsimp only
      omega
    · rfl
  · show ((reference.handedOut ++ (world.runtime.completions ++ [_])).map IoCompletion.seen) = _
    rw [← List.append_assoc, List.map_append, hfollows.completions, IoReference.execute,
      ← hstatus, ← hfollows.counter]
    rfl

/-- A whole batch follows the reference. -/
theorem IoWorld.Follows.foldl_serve {requests : List IoRequest}
    (hknown : ∀ request ∈ requests, request.operation ≠ .unknown) {world : IoWorld}
    {reference : IoReference} (hfollows : world.Follows reference) :
    (requests.foldl IoWorld.serve world).Follows (requests.foldl IoReference.execute reference) := by
  induction requests generalizing world reference with
  | nil => exact hfollows
  | cons request rest ih =>
      refine ih (fun other hother => hknown other (List.mem_cons_of_mem _ hother)) ?_
      exact hfollows.serve (hknown request List.mem_cons_self)

/-- Every round queues one completion. -/
theorem IoWorld.serve_completions (world : IoWorld) {request : IoRequest}
    (hknown : request.operation ≠ .unknown) :
    ∃ completion : IoCompletion, completion.id = world.runtime.requestId request
      ∧ (world.serve request).runtime.completions = world.runtime.completions ++ [completion]
      ∧ (world.serve request).runtime.nextIoRequestId = world.runtime.nextAfter request := by
  rw [IoWorld.serve]
  cases world.runtime.blockDevice with
  | none => exact ⟨_, rfl, rfl, rfl⟩
  | some device =>
      obtain ⟨status, bytesTransferred, device', memory', hexecute, -⟩ :=
        @executeIoRequest_agrees ⟨some device, world.memory, 0, [], []⟩ request device rfl hknown
      dsimp only at hexecute ⊢
      rw [hexecute]
      exact ⟨_, rfl, rfl, rfl⟩

theorem IoWorld.length_foldl_serve {requests : List IoRequest}
    (hknown : ∀ request ∈ requests, request.operation ≠ .unknown) (world : IoWorld) :
    (requests.foldl IoWorld.serve world).runtime.completions.length
      = world.runtime.completions.length + requests.length := by
  induction requests generalizing world with
  | nil => rfl
  | cons request rest ih =>
      obtain ⟨completion, -, hqueue, -⟩ := world.serve_completions (hknown request List.mem_cons_self)
      rw [List.foldl_cons, ih (fun other hother => hknown other (List.mem_cons_of_mem _ hother)),
        hqueue, List.length_append, List.length_singleton, List.length_cons]
      omega

/-- What the first loop checks. -/
theorem validateIoRequests_ok {requests : List IoRequest}
    (h : validateIoRequests requests = .ok ()) :
    ∀ request ∈ requests, request.operation ≠ .unknown := by
  induction requests with
  | nil =>
      intro request hmem
      cases hmem
  | cons request rest ih =>
      obtain ⟨-, h⟩ := guard_ok_iff.mp h
      have hboth : validateIoRequests rest = .ok () ∧ request.operation ≠ .unknown := by
        cases hop : request.operation with
        | unknown =>
            rw [hop] at h
            cases h
        | read =>
            rw [hop] at h
            exact ⟨h, by decide⟩
        | write =>
            rw [hop] at h
            exact ⟨h, by decide⟩
        | flush =>
            rw [hop] at h
            exact ⟨h, by decide⟩
      intro other hother
      rcases List.mem_cons.mp hother with rfl | hother
      · exact hboth.2
      · exact ih hboth.1 other hother

/-- A submission fails and changes nothing, or serves the whole batch, for
    which there is room. -/
theorem ioStep_submit_cases (world : IoWorld) (requests : List IoRequest)
    (hqueue : world.runtime.completions.length ≤ kHostedMaxOutstandingIo) :
    (∃ st, ioStep world (.submitIoBatch requests) = (.submission (.error st), world))
      ∨ ∃ submission : IoSubmissionResult, requests ≠ []
        ∧ world.runtime.completions.length + requests.length ≤ kHostedMaxOutstandingIo
        ∧ (∀ request ∈ requests, request.operation ≠ .unknown)
        ∧ submission.submittedCount = requests.length
        ∧ submission.firstRequestId = (requests.head?.map world.runtime.requestId).getD 0
        ∧ ioStep world (.submitIoBatch requests)
          = (.submission (.ok submission), requests.foldl IoWorld.serve world) := by
  rw [ioStep, HostedPlatformRuntime.submitIoBatch]
  by_cases hempty : requests = []
  · rw [if_pos hempty]
    exact .inl ⟨_, rfl⟩
  rw [if_neg hempty]
  by_cases hbatch : requests.length > kHostedMaxIoBatchSize
  · rw [if_pos hbatch]
    exact .inl ⟨_, rfl⟩
  rw [if_neg hbatch]
  -- the queue is within its limit, so the subtraction does not wrap
  have hslots : (kHostedMaxOutstandingIo + 2 ^ 64 - world.runtime.completions.length) % 2 ^ 64
      = kHostedMaxOutstandingIo - world.runtime.completions.length := by
    rw [kHostedMaxOutstandingIo] at hqueue ⊢
    omega
  rw [hslots]
  by_cases hroom : requests.length > kHostedMaxOutstandingIo - world.runtime.completions.length
  · rw [if_pos hroom]
    exact .inl ⟨_, rfl⟩
  rw [if_neg hroom]
  cases hvalid : validateIoRequests requests with
  | error st => exact .inl ⟨st, rfl⟩
  | ok done =>
      have hknown := validateIoRequests_ok hvalid
      obtain ⟨submission, hloop, hcount, hfirst⟩ :=
        HostedPlatformRuntime.executeIoRequests_eq requests hknown world
          { submittedCount := requests.length } 0
      refine .inr ⟨submission, hempty, by omega, hknown, hcount, ?_, ?_⟩
      · rw [hfirst]
        rfl
      · dsimp only
        rw [hloop]

/-! ## Polling -/

/-- The loop of `PollIoCompletions` takes from the front of the queue. -/
theorem pollCompletions_eq (room : Nat) (queue : List IoCompletion) :
    pollCompletions room queue = (queue.take room, queue.drop room) := by
  induction queue generalizing room with
  | nil => cases room <;> rfl
  | cons completion queue ih =>
      cases room with
      | zero => rfl
      | succ room =>
          rw [pollCompletions, ih]
          rfl

theorem ioStep_poll_cases (world : IoWorld) (size : Nat) :
    (∃ st, ioStep world (.pollIoCompletions size) = (.polled (.error st), world))
      ∨ ioStep world (.pollIoCompletions size)
        = (.polled (.ok (world.runtime.completions.take size)),
          { world with
            runtime := { world.runtime with completions := world.runtime.completions.drop size } }) := by
  rw [ioStep, HostedPlatformRuntime.pollIoCompletions]
  by_cases hsize : size = 0
  · rw [if_pos hsize]
    exact .inl ⟨_, rfl⟩
  · rw [if_neg hsize, pollCompletions_eq]
    exact .inr rfl

/-! ## Whole runs -/

/-- The reference at the start. -/
def IoReference.start (device : Option MemoryBlockDevice) (memory : Memory) : IoReference :=
  { device, memory }

/-- The runtime at the start. -/
def IoWorld.start (device : Option MemoryBlockDevice) (memory : Memory) : IoWorld :=
  { runtime := { blockDevice := device }, memory }

/-- One call keeps the runtime with the reference and the queue within its
    limit. -/
theorem ioStep_follows {world : IoWorld} {reference : IoReference}
    (hfollows : world.Follows reference)
    (hqueue : world.runtime.completions.length ≤ kHostedMaxOutstandingIo) (call : IoCall) :
    (ioStep world call).2.Follows (reference.track (call, (ioStep world call).1))
      ∧ (ioStep world call).2.runtime.completions.length ≤ kHostedMaxOutstandingIo := by
  cases call with
  | submitIoBatch requests =>
      rcases ioStep_submit_cases world requests hqueue with
        ⟨st, heq⟩ | ⟨submission, -, hroom, hknown, -, -, heq⟩
      · rw [heq]
        exact ⟨hfollows, hqueue⟩
      · rw [heq]
        refine ⟨hfollows.foldl_serve hknown, ?_⟩
        rw [IoWorld.length_foldl_serve hknown]
        exact hroom
  | pollIoCompletions size =>
      rcases ioStep_poll_cases world size with ⟨st, heq⟩ | heq
      · rw [heq]
        exact ⟨hfollows, hqueue⟩
      · rw [heq]
        refine ⟨⟨hfollows.device, hfollows.memory, hfollows.counter, ?_⟩, ?_⟩
        · -- a poll moves completions from the queue to the caller
          show ((reference.handedOut ++ world.runtime.completions.take size)
            ++ world.runtime.completions.drop size).map IoCompletion.seen = reference.expected
          rw [List.append_assoc, List.take_append_drop]
          exact hfollows.completions
        · show (world.runtime.completions.drop size).length ≤ kHostedMaxOutstandingIo
          rw [List.length_drop]
          omega
  | callerWrites memory =>
      exact ⟨⟨hfollows.device, rfl, hfollows.counter, hfollows.completions⟩, hqueue⟩

/-- Every run stays with the reference. -/
theorem io_run_follows (device : Option MemoryBlockDevice) (memory : Memory)
    (calls : List IoCall) :
    (Run.final ioStep (.start device memory) calls).Follows
        ((Run.trace ioStep (.start device memory) calls).foldl IoReference.track
          (.start device memory))
      ∧ (Run.final ioStep (.start device memory) calls).runtime.completions.length
        ≤ kHostedMaxOutstandingIo := by
  refine Run.final_refines (R := fun (world : IoWorld) (reference : IoReference) =>
    world.Follows reference ∧ world.runtime.completions.length ≤ kHostedMaxOutstandingIo)
    ?_ calls (.start device memory) (.start device memory) ?_
  · intro world reference call h
    exact ioStep_follows h.1 h.2 call
  · exact ⟨⟨rfl, rfl, rfl, rfl⟩, Nat.zero_le _⟩

/-- **BATCHED I/O**: after any calls the completions handed out and those still
    queued are, in order, one for each request of the accepted batches, as the
    reference expects them; the device and the memory are those of the
    reference; at most 1024 completions are queued; and a submission that
    returns an error changes nothing. -/
theorem io_run_executes (device : Option MemoryBlockDevice) (memory : Memory)
    (calls : List IoCall) :
    let world := Run.final ioStep (.start device memory) calls
    let reference := (Run.trace ioStep (.start device memory) calls).foldl IoReference.track
      (.start device memory)
    (reference.handedOut ++ world.runtime.completions).map IoCompletion.seen = reference.expected
      ∧ world.runtime.blockDevice = reference.device
      ∧ world.memory = reference.memory
      ∧ world.runtime.nextIoRequestId = (reference.assigned + 1) % 2 ^ 64
      ∧ world.runtime.completions.length ≤ kHostedMaxOutstandingIo
      ∧ ∀ requests st, (ioStep world (.submitIoBatch requests)).1 = .submission (.error st) →
          (ioStep world (.submitIoBatch requests)).2 = world := by
  obtain ⟨hfollows, hqueue⟩ := io_run_follows device memory calls
  refine ⟨hfollows.completions, hfollows.device, hfollows.memory, hfollows.counter, hqueue, ?_⟩
  intro requests st herror
  rcases ioStep_submit_cases _ requests hqueue with ⟨_, heq⟩ | ⟨_, -, -, -, -, -, heq⟩
  · rw [heq]
  · rw [heq] at herror
    cases herror

end MattSql
