import MattSql.BlockDeviceProofs

/-! # Single requests

    `runtime/platform.cpp`: the base class builds `SubmitIo` and
    `PollIoCompletion` on the two batch functions of a runtime, whose answers it
    checks.

    Over the hosted runtime the checks never fail before the ids wrap around,
    and the two functions work a queue of tickets (`single_io_refines_queue`).  A
    caller that polls after each submission has a block device
    (`transfers_refine_device`). -/

namespace MattSql

open ByteSpan

/-! ## The base class -/

/-- The batch functions of a `PlatformRuntime` over a context `κ`. -/
structure PlatformIo (κ : Type) where
  submitIoBatch : κ → List IoRequest → Result IoSubmissionResult × κ
  /-- The completions are those at the front of an output span of this size. -/
  pollIoCompletions : κ → Nat → Result (List IoCompletion) × κ

/-- `PlatformRuntime::SubmitIo`. -/
def PlatformIo.submitIo {κ : Type} (io : PlatformIo κ) (context : κ) (request : IoRequest) :
    Result Nat × κ :=
  let (submission, context) := io.submitIoBatch context [request]
  match submission with
  | .error st => (.error st, context)
  | .ok submission =>
    if submission.submittedCount ≠ 1 then
      (errorResult .internal
        (ascii "runtime returned an invalid single-request submission count"), context)
    else if submission.firstRequestId = 0
        ∨ (request.id ≠ 0 ∧ submission.firstRequestId ≠ request.id) then
      (errorResult .internal
        (ascii "runtime returned an invalid single-request submission id"), context)
    else (.ok submission.firstRequestId, context)

/-- `PlatformRuntime::PollIoCompletion`. -/
def PlatformIo.pollIoCompletion {κ : Type} (io : PlatformIo κ) (context : κ) :
    Result IoCompletion × κ :=
  let (completions, context) := io.pollIoCompletions context 1
  match completions with
  | .error st => (.error st, context)
  | .ok [] => (errorResult .notFound (ascii "no I/O completions are ready"), context)
  | .ok [completion] => (.ok completion, context)
  | .ok _ =>
    (errorResult .internal (ascii "runtime returned too many single-request completions"), context)

/-- The hosted runtime's batch functions. -/
def hostedIo : PlatformIo IoWorld where
  submitIoBatch world requests :=
    let (result, runtime, memory) := world.runtime.submitIoBatch world.memory requests
    (result, ⟨runtime, memory⟩)
  pollIoCompletions world size :=
    let (result, runtime) := world.runtime.pollIoCompletions size
    (result, { world with runtime })

/-! ## A queue of tickets -/

/-- What callers do that handle one request at a time. -/
inductive SingleCall where
  | submitIo (request : IoRequest)
  | pollIoCompletion
  | callerWrites (memory : Memory)

inductive SingleReply where
  | submitted (result : Result Nat)
  | polled (result : Result IoCompletion)
  | done

def singleStep (world : IoWorld) : SingleCall → SingleReply × IoWorld
  | .submitIo request =>
    let (result, world) := hostedIo.submitIo world request
    (.submitted result, world)
  | .pollIoCompletion =>
    let (result, world) := hostedIo.pollIoCompletion world
    (.polled result, world)
  | .callerWrites memory => (.done, { world with memory })

/-- A request that is not completed yet, as its caller knows it. -/
structure Ticket where
  id : Nat
  userData : Nat
  deriving DecidableEq

/-- A reply as seen by a caller who counts on tickets and error codes only. -/
inductive TicketReply where
  | submitted (result : Except ErrorCode Nat)
  | polled (result : Except ErrorCode Ticket)
  | done
  deriving DecidableEq

def IoCompletion.ticket (completion : IoCompletion) : Ticket :=
  ⟨completion.id, completion.userData⟩

def SingleReply.view : SingleReply → TicketReply
  | .submitted result => .submitted (result.mapError Status.code)
  | .polled result => .polled ((result.map IoCompletion.ticket).mapError Status.code)
  | .done => .done

/-- The tickets given out and not called in yet. -/
structure TicketQueue where
  assigned : Nat := 0
  outstanding : List Ticket := []

/-- The request passes the first loop of `SubmitIoBatch`. -/
def IoRequest.Known (request : IoRequest) : Prop :=
  request.flags &&& ~~~kHostedKnownIoRequestFlags = 0 ∧ request.operation ≠ .unknown

instance (request : IoRequest) : Decidable request.Known :=
  inferInstanceAs (Decidable (_ ∧ _))

/-- A ticket for a request: its own id or the next number. -/
def TicketQueue.issue (queue : TicketQueue) (request : IoRequest) : Ticket :=
  ⟨if request.id = 0 then queue.assigned + 1 else request.id, request.userData⟩

/-- First in, first out, for at most 1024 tickets. -/
def TicketQueue.step (queue : TicketQueue) : SingleCall → TicketReply × TicketQueue
  | .submitIo request =>
    if queue.outstanding.length ≥ kHostedMaxOutstandingIo then (.submitted (.error .ioError), queue)
    else if ¬request.Known then (.submitted (.error .invalidArgument), queue)
    else
      (.submitted (.ok (queue.issue request).id),
        { assigned := if request.id = 0 then queue.assigned + 1 else queue.assigned
          outstanding := queue.outstanding ++ [queue.issue request] })
  | .pollIoCompletion =>
    match queue.outstanding with
    | [] => (.polled (.error .notFound), queue)
    | ticket :: rest => (.polled (.ok ticket), { queue with outstanding := rest })
  | .callerWrites _ => (.done, queue)

/-- The submissions that take a number. -/
def SingleCall.takesNumber : SingleCall → Bool
  | .submitIo request => request.id = 0
  | _ => false

/-! ## One submission, one poll -/

/-- The first loop on a batch of one. -/
theorem validateIoRequests_singleton (request : IoRequest) :
    (request.Known ∧ validateIoRequests [request] = .ok ())
      ∨ ¬request.Known ∧ ∃ message,
        validateIoRequests [request] = errorResult .invalidArgument message := by
  rw [validateIoRequests]
  by_cases hflags : request.flags &&& ~~~kHostedKnownIoRequestFlags = 0
  · rw [if_neg (not_not_intro hflags)]
    cases hop : request.operation with
    | unknown => exact .inr ⟨fun hknown => hknown.2 hop, _, rfl⟩
    | _ => exact .inl ⟨⟨hflags, fun hunknown => nomatch hop.symm.trans hunknown⟩, rfl⟩
  · rw [if_pos hflags]
    exact .inr ⟨fun hknown => hflags hknown.1, _, rfl⟩

/-- **ONE SUBMISSION**: the queue is full, the request is not known, or it is
    served.  After the counter has wrapped around, a served request can have the
    id 0, which the base class takes for a fault. -/
theorem submitIo_cases (world : IoWorld) (request : IoRequest)
    (hqueue : world.runtime.completions.length ≤ kHostedMaxOutstandingIo) :
    (world.runtime.completions.length = kHostedMaxOutstandingIo ∧ ∃ message,
        hostedIo.submitIo world request = (errorResult .ioError message, world))
      ∨ (world.runtime.completions.length < kHostedMaxOutstandingIo ∧ ¬request.Known ∧ ∃ message,
        hostedIo.submitIo world request = (errorResult .invalidArgument message, world))
      ∨ (world.runtime.completions.length < kHostedMaxOutstandingIo ∧ request.Known
        ∧ hostedIo.submitIo world request
          = (if world.runtime.requestId request = 0 then errorResult .internal
              (ascii "runtime returned an invalid single-request submission id")
            else .ok (world.runtime.requestId request), world.serve request)) := by
  -- the queue is within its limit, so the subtraction does not wrap
  have hslots : (kHostedMaxOutstandingIo + 2 ^ 64 - world.runtime.completions.length) % 2 ^ 64
      = kHostedMaxOutstandingIo - world.runtime.completions.length := by
    rw [kHostedMaxOutstandingIo] at hqueue ⊢
    omega
  rw [PlatformIo.submitIo, hostedIo]
  dsimp only
  rw [HostedPlatformRuntime.submitIoBatch, if_neg (List.cons_ne_nil request []),
    List.length_singleton, if_neg (show ¬1 > kHostedMaxIoBatchSize by decide), hslots]
  by_cases hfull : world.runtime.completions.length = kHostedMaxOutstandingIo
  · rw [hfull, Nat.sub_self, if_pos Nat.one_pos]
    exact .inl ⟨rfl, _, rfl⟩
  have hroom : world.runtime.completions.length < kHostedMaxOutstandingIo := by omega
  rw [if_neg (show ¬1 > kHostedMaxOutstandingIo - world.runtime.completions.length by omega)]
  rcases validateIoRequests_singleton request with ⟨hknown, hvalid⟩ | ⟨hunknown, message, hvalid⟩
  · obtain ⟨submission, hloop, hcount, hfirst⟩ :=
      HostedPlatformRuntime.executeIoRequests_eq [request]
        (fun other hother => List.mem_singleton.mp hother ▸ hknown.2) world
        { submittedCount := 1 } 0
    have hid : submission.firstRequestId = world.runtime.requestId request := hfirst
    refine .inr (.inr ⟨hroom, hknown, ?_⟩)
    rw [hvalid]
    dsimp only
    rw [hloop]
    dsimp only
    rw [if_neg (show ¬submission.submittedCount ≠ 1 from not_not_intro hcount), hid]
    -- the id is the caller's own unless the caller left it to the runtime
    by_cases hzero : world.runtime.requestId request = 0
    · rw [if_pos (.inl hzero), if_pos hzero]
      rfl
    · have hown : ¬(world.runtime.requestId request = 0
          ∨ (request.id ≠ 0 ∧ world.runtime.requestId request ≠ request.id)) := by
        rintro (h | ⟨hne, hdiffers⟩)
        · exact hzero h
        · rw [HostedPlatformRuntime.requestId, if_neg hne] at hdiffers
          exact hdiffers rfl
      rw [if_neg hown, if_neg hzero]
      rfl
  · rw [hvalid]
    exact .inr (.inl ⟨hroom, hunknown, message, rfl⟩)

/-- **ONE POLL** takes the front of the queue. -/
theorem pollIoCompletion_cases (world : IoWorld) :
    (world.runtime.completions = [] ∧ hostedIo.pollIoCompletion world
        = (errorResult .notFound (ascii "no I/O completions are ready"), world))
      ∨ ∃ completion rest, world.runtime.completions = completion :: rest
        ∧ hostedIo.pollIoCompletion world = (.ok completion,
          { world with runtime := { world.runtime with completions := rest } }) := by
  rw [PlatformIo.pollIoCompletion, hostedIo]
  dsimp only
  rw [HostedPlatformRuntime.pollIoCompletions, if_neg Nat.one_ne_zero]
  cases hqueue : world.runtime.completions with
  | nil =>
      refine .inl ⟨rfl, ?_⟩
      obtain ⟨⟨device, next, completions⟩, memory⟩ := world
      cases hqueue
      rfl
  | cons completion rest =>
      refine .inr ⟨completion, rest, rfl, ?_⟩
      cases rest <;> rfl

/-- A served request adds its ticket to the queue. -/
theorem IoWorld.serve_ticket (world : IoWorld) {request : IoRequest}
    (hknown : request.operation ≠ .unknown) :
    ∃ completion : IoCompletion,
      completion.ticket = ⟨world.runtime.requestId request, request.userData⟩
      ∧ (world.serve request).runtime.completions = world.runtime.completions ++ [completion]
      ∧ (world.serve request).runtime.nextIoRequestId = world.runtime.nextAfter request := by
  rw [IoWorld.serve]
  cases world.runtime.blockDevice with
  | none => exact ⟨_, rfl, rfl, rfl⟩
  | some device =>
      obtain ⟨status, bytesTransferred, device', memory', hexecute, -⟩ :=
        @executeIoRequest_agrees ⟨some device, world.memory, 0, [], []⟩ request device rfl hknown
      dsimp only at hexecute ⊢
      rw [hexecute]
      exact ⟨_, rfl, rfl, rfl⟩

/-! ## Runs of single requests -/

/-- The runtime is where the queue is. -/
structure IoWorld.Shows (world : IoWorld) (queue : TicketQueue) : Prop where
  outstanding : world.runtime.completions.map IoCompletion.ticket = queue.outstanding
  counter : world.runtime.nextIoRequestId = queue.assigned + 1
  limit : world.runtime.completions.length ≤ kHostedMaxOutstandingIo

theorem IoWorld.Shows.length_eq {world : IoWorld} {queue : TicketQueue} (h : world.Shows queue) :
    world.runtime.completions.length = queue.outstanding.length := by
  rw [← h.outstanding, List.length_map]

/-- The number of calls that take a number bounds the numbers. -/
theorem TicketQueue.assigned_step (queue : TicketQueue) (call : SingleCall) :
    (queue.step call).2.assigned ≤ queue.assigned + if call.takesNumber then 1 else 0 := by
  cases call with
  | submitIo request =>
      rw [TicketQueue.step, SingleCall.takesNumber]
      split
      · exact Nat.le_add_right _ _
      · split
        · exact Nat.le_add_right _ _
        · by_cases hzero : request.id = 0
          · simp [hzero]
          · simp [hzero]
  | pollIoCompletion =>
      rw [TicketQueue.step]
      split <;> exact Nat.le_add_right _ _
  | callerWrites memory => exact Nat.le_add_right _ _

/-- One call is answered as by the queue, while there are numbers left. -/
theorem singleStep_shows {world : IoWorld} {queue : TicketQueue} (h : world.Shows queue)
    (call : SingleCall)
    (hnumbers : queue.assigned + (if call.takesNumber then 1 else 0) < 2 ^ 64 - 1) :
    (singleStep world call).1.view = (queue.step call).1
      ∧ (singleStep world call).2.Shows (queue.step call).2 := by
  cases call with
  | submitIo request =>
      rw [singleStep, TicketQueue.step]
      rcases submitIo_cases world request h.limit with ⟨hfull, message, heq⟩ |
        ⟨hroom, hunknown, message, heq⟩ | ⟨hroom, hknown, heq⟩
      · rw [heq, if_pos (by rw [← h.length_eq]; exact Nat.le_of_eq hfull.symm)]
        exact ⟨rfl, h⟩
      · rw [heq, if_neg (by rw [← h.length_eq]; omega), if_pos hunknown]
        exact ⟨rfl, h⟩
      · -- the number of a request without an id is not 0, and the next one is not either
        have hid : world.runtime.requestId request = (queue.issue request).id := by
          rw [HostedPlatformRuntime.requestId, TicketQueue.issue, h.counter]
        have hne : (queue.issue request).id ≠ 0 := by
          rw [TicketQueue.issue]
          dsimp only
          split
          · exact Nat.succ_ne_zero _
          · assumption
        obtain ⟨completion, hticket, hqueue, hcounter⟩ := world.serve_ticket hknown.2
        rw [heq, hid, if_neg hne, if_neg (by rw [← h.length_eq]; omega),
          if_neg (not_not_intro hknown)]
        refine ⟨rfl, ?_, ?_, ?_⟩
        · show (world.serve request).runtime.completions.map _ = queue.outstanding ++ [_]
          rw [hqueue, List.map_append, h.outstanding, List.map_singleton, hticket, hid]
          rfl
        · show (world.serve request).runtime.nextIoRequestId = _
          rw [hcounter, HostedPlatformRuntime.nextAfter, h.counter]
          rw [SingleCall.takesNumber] at hnumbers
          by_cases hzero : request.id = 0
          · rw [decide_eq_true hzero, if_pos rfl] at hnumbers
            rw [if_pos hzero, if_pos hzero]
            exact Nat.mod_eq_of_lt (by omega)
          · rw [if_neg hzero, if_neg hzero]
        · show (world.serve request).runtime.completions.length ≤ _
          rw [hqueue, List.length_append, List.length_singleton]
          omega
  | pollIoCompletion =>
      rw [singleStep, TicketQueue.step]
      rcases pollIoCompletion_cases world with ⟨hempty, heq⟩ | ⟨completion, rest, hqueue, heq⟩
      · have hnone : queue.outstanding = [] := by
          rw [← h.outstanding, hempty]
          rfl
        rw [heq, hnone]
        exact ⟨rfl, h⟩
      · have hsome : queue.outstanding = completion.ticket :: rest.map IoCompletion.ticket := by
          rw [← h.outstanding, hqueue]
          rfl
        have hlimit := h.limit
        rw [hqueue, List.length_cons] at hlimit
        rw [heq, hsome]
        exact ⟨rfl, rfl, h.counter, Nat.le_of_succ_le hlimit⟩
  | callerWrites memory => exact ⟨rfl, h.outstanding, h.counter, h.limit⟩

/-- Whole runs are answered as by the queue.  The induction is on the calls, with
    the numbers that they can still take. -/
theorem single_trace_shows {calls : List SingleCall} {world : IoWorld} {queue : TicketQueue}
    (h : world.Shows queue)
    (hnumbers : queue.assigned + calls.countP SingleCall.takesNumber < 2 ^ 64 - 1) :
    (Run.trace singleStep world calls).map (fun entry => (entry.1, entry.2.view))
        = Run.trace TicketQueue.step queue calls
      ∧ (Run.final singleStep world calls).Shows (Run.final TicketQueue.step queue calls) := by
  induction calls generalizing world queue with
  | nil => exact ⟨rfl, h⟩
  | cons call rest ih =>
      rw [List.countP_cons] at hnumbers
      obtain ⟨hreply, hnext⟩ := singleStep_shows h call (by omega)
      have hassigned := queue.assigned_step call
      obtain ⟨htrace, hfinal⟩ := ih hnext (by omega)
      refine ⟨?_, hfinal⟩
      rw [Run.trace, Run.trace, List.map_cons, htrace, hreply]

/-- **SINGLE REQUESTS**: over a hosted runtime with any device or none,
    `SubmitIo` and `PollIoCompletion` answer, in every run, as a queue of at most
    1024 tickets does: a submission gets its own id or the next number unless the
    queue is full or the request is not known, and a poll gets the oldest ticket
    not called in, or NotFound.  The run may take up to 2^64 - 2 numbers. -/
theorem single_io_refines_queue (device : Option MemoryBlockDevice) (memory : Memory)
    (calls : List SingleCall)
    (hnumbers : calls.countP SingleCall.takesNumber < 2 ^ 64 - 1) :
    (Run.trace singleStep (.start device memory) calls).map (fun entry => (entry.1, entry.2.view))
        = Run.trace TicketQueue.step {} calls
      ∧ (Run.final singleStep (.start device memory) calls).runtime.completions.map
          IoCompletion.ticket = (Run.final TicketQueue.step {} calls).outstanding := by
  have hstart : (IoWorld.start device memory).Shows {} := ⟨rfl, rfl, Nat.zero_le _⟩
  obtain ⟨htrace, hfinal⟩ := single_trace_shows hstart (by rw [Nat.zero_add]; exact hnumbers)
  exact ⟨htrace, hfinal.outstanding⟩

/-- Two submissions and three polls without a device. -/
theorem single_io_refines_queue_two :
    let calls : List SingleCall := [.submitIo { userData := 7 }, .submitIo { id := 9 },
      .pollIoCompletion, .pollIoCompletion, .pollIoCompletion]
    ((Run.trace singleStep (.start none fun _ => 0) calls).map fun entry => entry.2.view)
      = [.submitted (.ok 1), .submitted (.ok 9), .polled (.ok ⟨1, 7⟩), .polled (.ok ⟨9, 0⟩),
        .polled (.error .notFound)] := by
  intro calls
  have hrun := (single_io_refines_queue none (fun _ => 0) calls (by decide)).1
  have hreplies := congrArg (List.map Prod.snd) hrun
  rw [List.map_map] at hreplies
  exact hreplies

/-! ## A block device again -/

/-- A call of a block device that fits a single request: its buffer is not null,
    and it moves at least one byte and at most a mebibyte. -/
structure Transfer where
  call : DeviceCall
  bounded : call.length ≤ kHostedMaxIoRequestSize
  positive : call.operation ≠ .flush → 0 < call.length
  notNull : call.operation ≠ .flush → call.data ≠ 0

theorem Transfer.length_lt (transfer : Transfer) : transfer.call.length < 2 ^ 64 :=
  Nat.lt_of_le_of_lt transfer.bounded (by decide)

/-- The bytes that a transfer moves: none for a flush. -/
def Transfer.size (transfer : Transfer) : Nat :=
  if transfer.call.operation = .flush then 0 else transfer.call.length

theorem Transfer.size_lt (transfer : Transfer) : transfer.size < 2 ^ 64 := by
  rw [Transfer.size]
  split
  · decide
  · exact transfer.length_lt

theorem Transfer.size_null (transfer : Transfer) : transfer.call.data = 0 → transfer.size = 0 := by
  intro hnull
  rw [Transfer.size]
  split
  · rfl
  · rename_i hop
    exact absurd hnull (transfer.notNull hop)

def DeviceOperation.toIo : DeviceOperation → IoOperation
  | .read => .read
  | .write => .write
  | .flush => .flush

/-- The request for a transfer. -/
def Transfer.request (transfer : Transfer) : IoRequest where
  operation := transfer.call.operation.toIo
  offset := transfer.call.offset
  buffer := ⟨transfer.call.data, transfer.size, transfer.size_null, transfer.size_lt⟩
  length := transfer.call.length
  lengthFits := transfer.length_lt

/-- A caller that fills its memory, submits one request and polls once. -/
def transferStep (world : IoWorld) (transfer : Transfer) : DeviceReply × IoWorld :=
  match hostedIo.submitIo { world with memory := transfer.call.memory } transfer.request with
  | (.error st, world) => (⟨.error st, world.memory⟩, world)
  | (.ok _, world) =>
    match hostedIo.pollIoCompletion world with
    | (.error st, world) => (⟨.error st, world.memory⟩, world)
    | (.ok completion, world) => (⟨completion.status, world.memory⟩, world)

/-- The runtime executes a transfer as the device does. -/
theorem Transfer.executeIoRequest_eq (transfer : Transfer) (device : MemoryBlockDevice) :
    ∃ bytesTransferred, executeIoRequest device transfer.call.memory transfer.request
      = some ((deviceStep device transfer.call).1.status, bytesTransferred,
          (deviceStep device transfer.call).2, (deviceStep device transfer.call).1.memory) := by
  obtain ⟨⟨operation, memory, offset, data, length⟩, hbounded, hpositive, hnull⟩ := transfer
  have hvalid : ∀ request : IoRequest, 0 < length → request.buffer.size = length →
      validateBufferedIoRequest request length = .ok () := fun request hpos hsize =>
    validateBufferedIoRequest_ok_iff.mpr ⟨hpos, Nat.le_of_eq hsize.symm, hbounded⟩
  have heffective : ∀ request : IoRequest, request.length = length →
      request.buffer.size = length ∨ request.buffer.size = 0 →
      effectiveRequestLength request = length := by
    intro request hlength hsize
    rw [effectiveRequestLength, hlength]
    split
    · rfl
    · omega
  cases operation with
  | read =>
      rw [executeIoRequest, heffective _ rfl (.inl rfl)]
      dsimp only [Transfer.request, DeviceOperation.toIo, deviceStep]
      rw [hvalid _ (hpositive DeviceOperation.noConfusion) rfl]
      dsimp only
      rcases device.read memory offset data length with ⟨status | done, memory'⟩
      · exact ⟨_, rfl⟩
      · exact ⟨_, rfl⟩
  | write =>
      rw [executeIoRequest, heffective _ rfl (.inl rfl)]
      dsimp only [Transfer.request, DeviceOperation.toIo, deviceStep]
      rw [hvalid _ (hpositive DeviceOperation.noConfusion) rfl]
      dsimp only
      rcases device.write memory offset data length with ⟨status | done, device'⟩
      · exact ⟨_, rfl⟩
      · exact ⟨_, rfl⟩
  | flush =>
      rw [executeIoRequest, heffective _ rfl (.inr rfl)]
      dsimp only [Transfer.request, DeviceOperation.toIo, deviceStep]
      rw [if_neg (Nat.not_lt.mpr hbounded)]
      exact ⟨_, rfl⟩

/-- The runtime holds the device, with nothing outstanding and numbers left. -/
structure IoWorld.Idle (world : IoWorld) (device : MemoryBlockDevice) (assigned : Nat) : Prop where
  device : world.runtime.blockDevice = some device
  outstanding : world.runtime.completions = []
  counter : world.runtime.nextIoRequestId = assigned + 1

theorem Transfer.request_id (transfer : Transfer) : transfer.request.id = 0 := by
  obtain ⟨⟨operation, memory, offset, data, length⟩, hbounded, hpositive, hnull⟩ := transfer
  cases operation <;> rfl

theorem Transfer.request_known (transfer : Transfer) : transfer.request.Known := by
  obtain ⟨⟨operation, memory, offset, data, length⟩, hbounded, hpositive, hnull⟩ := transfer
  cases operation <;> exact ⟨BitVec.zero_and, nofun⟩

/-- One transfer is one call of the device, and the runtime is idle again. -/
theorem transferStep_eq {world : IoWorld} {device : MemoryBlockDevice} {assigned : Nat}
    (h : world.Idle device assigned) (hassigned : assigned + 1 < 2 ^ 64 - 1)
    (transfer : Transfer) :
    (transferStep world transfer).1 = (deviceStep device transfer.call).1
      ∧ (transferStep world transfer).2.Idle (deviceStep device transfer.call).2 (assigned + 1) := by
  obtain ⟨bytesTransferred, hexecute⟩ := transfer.executeIoRequest_eq device
  have hid : world.runtime.requestId transfer.request = assigned + 1 := by
    rw [HostedPlatformRuntime.requestId, if_pos transfer.request_id, h.counter]
  have hnext : world.runtime.nextAfter transfer.request = assigned + 1 + 1 := by
    rw [HostedPlatformRuntime.nextAfter, if_pos transfer.request_id, h.counter]
    exact Nat.mod_eq_of_lt (by omega)
  -- the world that the request leaves
  have hserve : IoWorld.serve { world with memory := transfer.call.memory } transfer.request =
      { memory := (deviceStep device transfer.call).1.memory
        runtime :=
          { blockDevice := some (deviceStep device transfer.call).2
            nextIoRequestId := assigned + 1 + 1
            completions := [
              { id := assigned + 1
                status := (deviceStep device transfer.call).1.status
                bytesTransferred
                userData := transfer.request.userData }] } } := by
    rw [IoWorld.serve, h.device]
    dsimp only
    rw [hexecute, h.outstanding, hid, hnext]
    rfl
  have hempty : ({ world with memory := transfer.call.memory } : IoWorld).runtime.completions.length
      = 0 := by
    rw [h.outstanding]
    rfl
  rw [transferStep]
  rcases submitIo_cases { world with memory := transfer.call.memory } transfer.request
      (hempty ▸ Nat.zero_le _) with ⟨hfull, -⟩ | ⟨-, hunknown, -⟩ | ⟨-, -, heq⟩
  · exact absurd (hempty.symm.trans hfull) (by decide)
  · exact absurd transfer.request_known hunknown
  · rw [heq, hserve, if_neg (show ¬world.runtime.requestId transfer.request = 0 by omega)]
    exact ⟨rfl, rfl, rfl, rfl⟩

/-- **A BLOCK DEVICE BEHIND THE RUNTIME**: a caller that submits one request at
    a time and polls for it sees, in every run of fewer than 2^64 - 1 transfers,
    what the calls of the device itself would show: the same statuses, the same
    memory, and the same device in the end. -/
theorem transfers_refine_device (device : MemoryBlockDevice) (memory : Memory)
    (transfers : List Transfer) (hcount : transfers.length < 2 ^ 64 - 1) :
    (Run.trace transferStep (.start (some device) memory) transfers).map Prod.snd
        = (Run.trace deviceStep device (transfers.map Transfer.call)).map Prod.snd
      ∧ (Run.final transferStep (.start (some device) memory) transfers).runtime.blockDevice
        = some (Run.final deviceStep device (transfers.map Transfer.call)) := by
  have hrun : ∀ (transfers : List Transfer) (world : IoWorld) (device : MemoryBlockDevice)
      (assigned : Nat), world.Idle device assigned → assigned + transfers.length < 2 ^ 64 - 1 →
      (Run.trace transferStep world transfers).map Prod.snd
          = (Run.trace deviceStep device (transfers.map Transfer.call)).map Prod.snd
        ∧ (Run.final transferStep world transfers).runtime.blockDevice
          = some (Run.final deviceStep device (transfers.map Transfer.call)) := by
    intro transfers
    induction transfers with
    | nil =>
        intro world device assigned h _
        exact ⟨rfl, h.device⟩
    | cons transfer rest ih =>
        intro world device assigned h hlength
        rw [List.length_cons] at hlength
        obtain ⟨hreply, hidle⟩ := transferStep_eq h (by omega) transfer
        obtain ⟨htrace, hfinal⟩ := ih _ _ _ hidle (by omega)
        refine ⟨?_, hfinal⟩
        rw [List.map_cons, Run.trace, Run.trace, List.map_cons, List.map_cons, htrace, hreply]
  exact hrun transfers (.start (some device) memory) device 0 ⟨rfl, rfl, rfl⟩
    (by rw [Nat.zero_add]; exact hcount)

/-- Two bytes written and read back, and a read past the end. -/
theorem transfers_refine_device_read_back :
    let write : Transfer := ⟨⟨.write, fun address => address.toUInt8, 2, 5, 2⟩, by decide,
      by decide, by decide⟩
    let read : Transfer := ⟨⟨.read, fun _ => 0, 2, 9, 2⟩, by decide, by decide, by decide⟩
    let past : Transfer := ⟨⟨.read, fun _ => 0, 4, 9, 2⟩, by decide, by decide, by decide⟩
    ((Run.trace transferStep (.start (some (.ofSize 4 2)) fun _ => 0) [write, read, past]).map
        Prod.snd).map (fun reply => (statusCode reply.status, [9, 10].map reply.memory))
      = [(none, [9, 10]), (none, [5, 6]), (some .invalidArgument, [0, 0])] := by
  intro write read past
  rw [(transfers_refine_device (.ofSize 4 2) (fun _ => 0) [write, read, past] (by decide)).1]
  decide

end MattSql
