import MattSql.CAbiRuntimeProofs
import MattSql.RequestIdProofs

/-! # The loopback through the C ABI

    A consumer over the table of a provider is compared with the runtime
    behind the provider.  Each translation is undone by the one on the other
    side, as long as flags and operations are known and lengths are in bounds;
    the checks that both sides add are ones that such calls pass.

    What the checks need of the runtime is an invariant of its runs: the ids
    of queued completions are not zero, and its statuses have codes and
    messages that the ABI can carry. -/

namespace MattSql

/-! ## Translations there and back -/

theorem fitsSizeT_of_lt {value : Nat} (h : value < 2 ^ 64) : fitsSizeT value = true :=
  decide_eq_true (by omega)

theorem sizeOrZero_of_lt {value : Nat} (h : value < 2 ^ 64) : sizeOrZero value = value := by
  rw [sizeOrZero, if_pos (fitsSizeT_of_lt h)]

/-- Flags within a mask are at most the mask. -/
theorem flags_le_of_known {flags mask : Flags} (h : flags &&& ~~~mask = 0) :
    flags.toNat ≤ mask.toNat := by
  have hand : flags &&& mask = flags := by
    apply BitVec.eq_of_getLsbD_eq
    intro i hi
    have hbit := congrArg (fun bits : Flags => bits.getLsbD i) h
    simp only [BitVec.getLsbD_and, BitVec.getLsbD_not] at hbit ⊢
    cases hflag : flags.getLsbD i with
    | false => rfl
    | true => simpa [hflag, hi] using hbit
  rw [← hand, BitVec.toNat_and]
  exact Nat.and_le_right

/-- Known memory flags. -/
theorem memoryFlags_cases {flags : Flags} (h : flags &&& ~~~kKnownRuntimeMemoryFlags = 0) :
    flags = 0 ∨ flags = 1 ∨ flags = 2 ∨ flags = 3 := by
  have hle : flags.toNat ≤ 3 := flags_le_of_known h
  simp only [← BitVec.toNat_inj]
  change flags.toNat = 0 ∨ flags.toNat = 1 ∨ flags.toNat = 2 ∨ flags.toNat = 3
  omega

/-- Known request flags. -/
theorem ioRequestFlags_cases {flags : Flags} (h : flags &&& ~~~kKnownIoRequestFlags = 0) :
    flags = 0 ∨ flags = 1 ∨ flags = 2 ∨ flags = 3 ∨ flags = 4 ∨ flags = 5 ∨ flags = 6
      ∨ flags = 7 := by
  have hle : flags.toNat ≤ 7 := flags_le_of_known h
  simp only [← BitVec.toNat_inj]
  change flags.toNat = 0 ∨ flags.toNat = 1 ∨ flags.toNat = 2 ∨ flags.toNat = 3
    ∨ flags.toNat = 4 ∨ flags.toNat = 5 ∨ flags.toNat = 6 ∨ flags.toNat = 7
  omega

theorem fromAbiMemoryFlags_toAbi {flags : Flags}
    (h : flags &&& ~~~kKnownRuntimeMemoryFlags = 0) :
    fromAbiMemoryFlags (toAbiMemoryFlags flags) = flags
      ∧ toAbiMemoryFlags flags &&& ~~~kKnownAbiMemoryFlags = 0 := by
  rcases memoryFlags_cases h with rfl | rfl | rfl | rfl <;> exact ⟨by decide, by decide⟩

theorem fromAbiIoRequestFlags_toAbi {flags : Flags} (h : flags &&& ~~~kKnownIoRequestFlags = 0) :
    fromAbiIoRequestFlags (toAbiIoRequestFlags flags) = flags
      ∧ toAbiIoRequestFlags flags &&& ~~~kKnownAbiIoRequestFlags = 0 := by
  rcases ioRequestFlags_cases h with rfl | rfl | rfl | rfl | rfl | rfl | rfl | rfl <;>
    exact ⟨by decide, by decide⟩

/-- What a request must be for the ABI to carry it. -/
structure IoRequest.Portable (request : IoRequest) : Prop where
  operation : request.operation ≠ .unknown
  flags : request.flags &&& ~~~kKnownIoRequestFlags = 0
  buffered : request.operation ≠ .flush →
    request.buffer.data ≠ 0 ∧ request.length ≤ request.buffer.size

theorem fromAbiIoOperation_toAbi {operation : IoOperation} (h : operation ≠ .unknown) :
    ∃ code, toAbiIoOperation operation = some code ∧ fromAbiIoOperation code = some operation := by
  cases operation with
  | read => exact ⟨0, rfl, rfl⟩
  | write => exact ⟨1, rfl, rfl⟩
  | flush => exact ⟨2, rfl, rfl⟩
  | unknown => exact absurd rfl h

/-- A request comes out of the two loops as it went in. -/
theorem fromAbiIoRequest_toAbi {request : IoRequest} (h : request.Portable) :
    ∃ abiRequest, CAbiPlatformRuntime.toAbiIoRequest request = .ok abiRequest
      ∧ CAbiRuntimeProvider.fromAbiIoRequest abiRequest = .ok request := by
  obtain ⟨code, htoCode, hfromCode⟩ := fromAbiIoOperation_toAbi h.operation
  obtain ⟨hflags, hknown⟩ := fromAbiIoRequestFlags_toAbi h.flags
  have hlength : ¬ (request.operation ≠ .flush ∧ request.length > request.buffer.size) := by
    rintro ⟨hflush, hgt⟩
    exact Nat.not_lt.mpr (h.buffered hflush).2 hgt
  refine ⟨⟨request.id, code, toAbiIoRequestFlags request.flags, request.offset,
    request.buffer.data, request.buffer.size, request.length, request.userData⟩, ?_, ?_⟩
  · rw [CAbiPlatformRuntime.toAbiIoRequest, htoCode]
    dsimp only
    rw [if_neg (fun hne => hne h.flags), if_neg hlength]
  · have hfits : ¬ (fitsSizeT request.buffer.size = false ∨ fitsSizeT request.length = false) := by
      rw [fitsSizeT_of_lt request.buffer.sizeFits, fitsSizeT_of_lt request.lengthFits]
      decide
    have hnull : ¬ (request.operation ≠ .flush ∧ request.buffer.data = 0) := by
      rintro ⟨hflush, hdata⟩
      exact (h.buffered hflush).1 hdata
    have hempty : ¬ (request.buffer.data = 0 ∧ request.buffer.size ≠ 0) := by
      rintro ⟨hdata, hsize⟩
      exact hsize (request.buffer.wellFormed hdata)
    rw [CAbiRuntimeProvider.fromAbiIoRequest]
    dsimp only
    rw [hfromCode]
    dsimp only
    rw [if_neg (fun hne => hne hknown), if_neg hfits, if_neg hnull, dif_neg hempty, if_neg hlength]
    congr 1
    obtain ⟨id, operation, offset, ⟨data, size, hwell, hsize⟩, length, flags, userData, hlt⟩ := request
    simp only [IoRequest.mk.injEq, BufferView.mk.injEq, true_and, and_true]
    exact ⟨Nat.mod_eq_of_lt hsize, Nat.mod_eq_of_lt hlt, hflags⟩

/-- So does a batch. -/
theorem mapM_fromAbiIoRequest_toAbi {requests : List IoRequest}
    (h : ∀ request ∈ requests, request.Portable) :
    ∃ abiRequests, requests.mapM CAbiPlatformRuntime.toAbiIoRequest = .ok abiRequests
      ∧ abiRequests.mapM CAbiRuntimeProvider.fromAbiIoRequest = .ok requests
      ∧ abiRequests.length = requests.length := by
  induction requests with
  | nil => exact ⟨[], rfl, rfl, rfl⟩
  | cons request rest ih =>
      obtain ⟨abiRequest, hto, hfrom⟩ := fromAbiIoRequest_toAbi (h request List.mem_cons_self)
      obtain ⟨abiRest, htos, hfroms, hlength⟩ :=
        ih fun other hother => h other (List.mem_cons_of_mem _ hother)
      refine ⟨abiRequest :: abiRest, ?_, ?_, ?_⟩
      · rw [List.mapM_cons, hto, htos]
        rfl
      · rw [List.mapM_cons, hfrom, hfroms]
        rfl
      · rw [List.length_cons, List.length_cons, hlength]

/-! ## Statuses -/

/-- The ABI can carry the status of this result. -/
def CarriesStatus {α : Type} (result : Result α) : Prop :=
  ∀ st, result = .error st → st.code ≠ .undefined ∧ st.message.length < 2 ^ 64

theorem carriesStatus_ok {α : Type} (a : α) : CarriesStatus (.ok a : Result α) := by
  intro st h
  cases h

theorem carriesStatus_error {α : Type} {code : ErrorCode} {message : Bytes}
    (hcode : code ≠ .undefined) (hmessage : message.length < 2 ^ 64) :
    CarriesStatus (errorResult code message : Result α) := by
  intro st h
  cases h
  exact ⟨hcode, hmessage⟩

theorem carriesStatus_guard {α : Type} {p : Prop} [Decidable p] {code : ErrorCode}
    {message : Bytes} {result : Result α} (hcode : code ≠ .undefined)
    (hmessage : message.length < 2 ^ 64) (h : CarriesStatus result) :
    CarriesStatus (if p then errorResult code message else result) := by
  split
  · exact carriesStatus_error hcode hmessage
  · exact h

theorem fromAbiStatusCode_toAbi {code : ErrorCode} (h : code ≠ .undefined) :
    fromAbiStatusCode (toAbiStatusCode (some code)) = some code := by
  cases code <;> first | rfl | exact absurd rfl h

theorem toAbiStatusCode_ne_zero (code : ErrorCode) : toAbiStatusCode (some code) ≠ 0 := by
  cases code <;> decide

/-- A message reads back. -/
theorem fromAbiMessage_of_read {κ : Type} {table : AbiRuntime κ} {context : κ} {code : Nat}
    {message : AbiMessage} {text : Bytes} (hne : message ≠ .null)
    (hread : table.readMessage context message = text) (hlength : text.length < 2 ^ 64)
    (htext : text ≠ []) :
    CAbiPlatformRuntime.fromAbiMessage table context ⟨code, message, text.length⟩ = text := by
  have hpos : text.length ≠ 0 := fun h => htext (List.length_eq_zero_iff.mp h)
  rw [CAbiPlatformRuntime.fromAbiMessage]
  dsimp only
  rw [if_neg (not_or.mpr ⟨hne, hpos⟩), if_neg (by omega), hread, List.take_length]

section StoredStatus

variable (provider : CAbiRuntimeProvider) {st : Status}

/-- A failing status comes out of the provider as it went in. -/
theorem fromAbiStatus_storeStatus (hcode : st.code ≠ .undefined)
    (hlength : st.message.length < 2 ^ 64) :
    CAbiPlatformRuntime.fromAbiStatus CAbiRuntimeProvider.runtimeTable
        (provider.storeStatus (.error st)).2 (provider.storeStatus (.error st)).1
      = .error st := by
  rw [CAbiPlatformRuntime.fromAbiStatus, CAbiRuntimeProvider.storeStatus]
  obtain ⟨code, message⟩ := st
  dsimp only at hcode hlength ⊢
  by_cases hempty : message = []
  · subst hempty
    rw [if_pos rfl]
    dsimp only
    rw [fromAbiStatusCode_toAbi hcode]
    rfl
  · rw [if_neg hempty]
    dsimp only
    rw [fromAbiStatusCode_toAbi hcode]
    dsimp only
    have hne : AbiMessage.statusMessage ≠ .null := by decide
    rw [@fromAbiMessage_of_read _ _ _ _ _ message hne rfl hlength hempty]

theorem abiStatusOk_storeStatus :
    CAbiPlatformRuntime.abiStatusOk (provider.storeStatus (.error st)).1 = false := by
  rw [CAbiPlatformRuntime.abiStatusOk, decide_eq_false_iff_not, CAbiRuntimeProvider.storeStatus]
  dsimp only
  split <;> exact toAbiStatusCode_ne_zero st.code

/-- The consumer gives the provider's error back. -/
theorem abiError_storeStatus {α : Type} (hcode : st.code ≠ .undefined)
    (hlength : st.message.length < 2 ^ 64) :
    (CAbiPlatformRuntime.abiError CAbiRuntimeProvider.runtimeTable
        (provider.storeStatus (.error st)).2 (provider.storeStatus (.error st)).1 : Result α)
      = .error st := by
  rw [CAbiPlatformRuntime.abiError, fromAbiStatus_storeStatus provider hcode hlength]

/-- Storing a status leaves the runtime and the memory alone. -/
theorem storeStatus_toIoWorld (status : Result Unit) :
    (provider.storeStatus status).2.toIoWorld = provider.toIoWorld := by
  cases status <;> rfl

end StoredStatus

/-! ## Completions -/

/-- What a completion must be for the ABI to carry it. -/
structure IoCompletion.Portable (completion : IoCompletion) : Prop where
  id : completion.id ≠ 0
  status : CarriesStatus completion.status
  bytesTransferred : completion.bytesTransferred < 2 ^ 64

/-- The loop of the provider only adds messages. -/
theorem toAbiIoCompletions_messages (completions : List IoCompletion) (messages : List Bytes) :
    ∃ more, (CAbiRuntimeProvider.toAbiIoCompletions messages completions).2 = messages ++ more := by
  induction completions generalizing messages with
  | nil => exact ⟨[], (List.append_nil _).symm⟩
  | cons completion rest ih =>
      rw [CAbiRuntimeProvider.toAbiIoCompletions]
      dsimp only
      by_cases hempty : CAbiRuntimeProvider.messageOf completion.status = []
      · rw [if_pos hempty]
        exact ih messages
      · rw [if_neg hempty]
        obtain ⟨more, hmore⟩ := ih (messages ++ [CAbiRuntimeProvider.messageOf completion.status])
        rw [hmore, List.append_assoc]
        exact ⟨_, rfl⟩

/-- The status of a completion reads back from the place of its message. -/
theorem fromAbiStatus_completion {status : Result Unit} (hstatus : CarriesStatus status)
    {provider : CAbiRuntimeProvider} {index : Nat}
    (hread : CAbiRuntimeProvider.messageOf status ≠ [] →
      provider.completionStatusMessages.getD index [] = CAbiRuntimeProvider.messageOf status) :
    CAbiPlatformRuntime.fromAbiStatus CAbiRuntimeProvider.runtimeTable provider
        (if CAbiRuntimeProvider.messageOf status = [] then
          { code := toAbiStatusCode (statusCode status) }
        else
          { code := toAbiStatusCode (statusCode status)
            message := .completionMessage index
            messageLength := (CAbiRuntimeProvider.messageOf status).length })
      = status := by
  cases status with
  | ok done => rfl
  | error st =>
      obtain ⟨hcode, hlength⟩ := hstatus st rfl
      by_cases hempty : CAbiRuntimeProvider.messageOf (.error st) = []
      · rw [if_pos hempty, CAbiPlatformRuntime.fromAbiStatus]
        dsimp only [statusCode]
        rw [fromAbiStatusCode_toAbi hcode]
        obtain ⟨code, message⟩ := st
        obtain rfl : message = [] := hempty
        rfl
      · have hne : AbiMessage.completionMessage index ≠ .null := by
          intro hnull
          cases hnull
        rw [if_neg hempty, CAbiPlatformRuntime.fromAbiStatus]
        dsimp only [statusCode]
        rw [fromAbiStatusCode_toAbi hcode]
        dsimp only
        have htext : CAbiRuntimeProvider.runtimeTable.readMessage provider
            (.completionMessage index) = CAbiRuntimeProvider.messageOf (.error st) := hread hempty
        rw [fromAbiMessage_of_read hne htext hlength hempty]
        rfl

/-- Completions come out of the two loops as they went in, while the provider
    holds the messages. -/
theorem mapM_fromAbiIoCompletion_toAbi {completions : List IoCompletion}
    (h : ∀ completion ∈ completions, completion.Portable) (messages : List Bytes)
    {provider : CAbiRuntimeProvider}
    (hprovider : provider.completionStatusMessages
      = (CAbiRuntimeProvider.toAbiIoCompletions messages completions).2) :
    (CAbiRuntimeProvider.toAbiIoCompletions messages completions).1.mapM
        (CAbiPlatformRuntime.fromAbiIoCompletion CAbiRuntimeProvider.runtimeTable provider)
      = .ok completions := by
  induction completions generalizing messages with
  | nil => rfl
  | cons completion rest ih =>
      have hcompletion := h completion List.mem_cons_self
      have hrest := ih fun other hother => h other (List.mem_cons_of_mem _ hother)
      rw [CAbiRuntimeProvider.toAbiIoCompletions] at hprovider ⊢
      dsimp only at hprovider ⊢
      -- later messages are stored behind this one
      have hread : CAbiRuntimeProvider.messageOf completion.status ≠ [] →
          provider.completionStatusMessages.getD messages.length []
            = CAbiRuntimeProvider.messageOf completion.status := by
        intro hne
        rw [if_neg hne] at hprovider
        obtain ⟨more, hmore⟩ := toAbiIoCompletions_messages rest
          (messages ++ [CAbiRuntimeProvider.messageOf completion.status])
        rw [hprovider, hmore, List.append_assoc]
        simp
      rw [List.mapM_cons, hrest _ hprovider, CAbiPlatformRuntime.fromAbiIoCompletion]
      dsimp only
      rw [if_neg hcompletion.id, fitsSizeT_of_lt hcompletion.bytesTransferred,
        if_neg Bool.true_eq_false.mp, Nat.mod_eq_of_lt hcompletion.bytesTransferred,
        fromAbiStatus_completion hcompletion.status hread]
      rfl

/-! ## Calls -/

/-- The calls of a platform runtime that are compared.  `address` is what the
    host's `operator new` answers. -/
inductive RuntimeCall where
  | getCapabilities
  | allocatePages (pageCount alignment : UInt64) (flags : Flags) (address : Nat)
  | freePages (allocation : RuntimePageAllocation)
  | io (call : IoCall)

inductive RuntimeReply where
  | capabilities (capabilities : RuntimeCapabilities)
  | allocation (result : Result RuntimePageAllocation)
  | freed (result : Result Unit)
  | io (reply : IoReply)

/-- The hosted runtime, called directly. -/
def directStep (world : IoWorld) : RuntimeCall → RuntimeReply × IoWorld
  | .getCapabilities => (.capabilities world.runtime.getCapabilities, world)
  | .allocatePages pageCount alignment flags address =>
    let (result, memory) := HostedPlatformRuntime.allocatePages world.memory pageCount.toNat
      alignment.toNat flags address
    (.allocation result, { world with memory })
  | .freePages allocation => (.freed (HostedPlatformRuntime.freePages allocation), world)
  | .io call =>
    let (reply, world) := ioStep world call
    (.io reply, world)

/-- The consumer over the table of the provider. -/
def loopbackStep (provider : CAbiRuntimeProvider) :
    RuntimeCall → RuntimeReply × CAbiRuntimeProvider
  | .getCapabilities =>
    let (capabilities, provider) :=
      CAbiPlatformRuntime.getCapabilities CAbiRuntimeProvider.runtimeTable provider
    (.capabilities capabilities, provider)
  | .allocatePages pageCount alignment flags address =>
    let (result, provider) := CAbiPlatformRuntime.allocatePages CAbiRuntimeProvider.runtimeTable
      provider pageCount.toNat alignment.toNat flags address
    (.allocation result, provider)
  | .freePages allocation =>
    let (result, provider) :=
      CAbiPlatformRuntime.freePages CAbiRuntimeProvider.runtimeTable provider allocation
    (.freed result, provider)
  | .io (.submitIoBatch requests) =>
    let (result, provider) :=
      CAbiPlatformRuntime.submitIoBatch CAbiRuntimeProvider.runtimeTable provider requests
    (.io (.submission result), provider)
  | .io (.pollIoCompletions size) =>
    let (result, provider) :=
      CAbiPlatformRuntime.pollIoCompletions CAbiRuntimeProvider.runtimeTable provider size
    (.io (.polled result), provider)
  | .io (.callerWrites memory) => (.io .done, { provider with memory })

/-- The allocations that are live and the number of ids assigned. -/
structure Ledger where
  live : List RuntimePageAllocation := []
  assigned : Nat := 0

def Ledger.track (ledger : Ledger) : RuntimeCall × RuntimeReply → Ledger
  | (.allocatePages _ _ _ _, .allocation (.ok allocation)) =>
    { ledger with live := allocation :: ledger.live }
  | (.freePages allocation, .freed (.ok _)) =>
    { ledger with live := ledger.live.erase allocation }
  | (.io (.submitIoBatch requests), .io (.submission (.ok _))) =>
    { ledger with assigned := ledger.assigned + unnumbered requests }
  | _ => ledger

/-- The calls that are compared: known flags and operations, buffers that are
    there and long enough, and allocations that are live.  Allocating memory
    does not fail, and sizes are values of `std::size_t`. -/
def Ledger.Admits (ledger : Ledger) : RuntimeCall → Prop
  | .getCapabilities => True
  | .allocatePages _ _ flags address =>
    flags &&& ~~~kKnownRuntimeMemoryFlags = 0 ∧ address ≠ 0
  | .freePages allocation => allocation ∈ ledger.live
  | .io (.submitIoBatch requests) =>
    requests.length < 2 ^ 64 ∧ ∀ request ∈ requests, request.Portable
  | .io (.pollIoCompletions size) => size < 2 ^ 64
  | .io (.callerWrites _) => True

/-! ## What the runtime keeps -/

/-- The allocations that the runtime hands out. -/
structure RuntimePageAllocation.Valid (allocation : RuntimePageAllocation) : Prop where
  data : allocation.data ≠ 0
  pageCount : allocation.pageCount ≠ 0
  pageCountFits : allocation.pageCount < 2 ^ 64
  pageSize : allocation.pageSize = kDefaultPageSize
  alignment : isPowerOfTwo allocation.alignment = true
  alignmentFits : allocation.alignment < 2 ^ 64
  flags : allocation.flags &&& ~~~kKnownRuntimeMemoryFlags = 0

/-- What the checks of the ABI need of the runtime. -/
structure IoWorld.Carries (world : IoWorld) (ledger : Ledger) : Prop where
  counter : world.runtime.nextIoRequestId = (ledger.assigned + 1) % 2 ^ 64
  queue : world.runtime.completions.length ≤ kHostedMaxOutstandingIo
  ids : ledger.assigned < 2 ^ 64 → ∀ completion ∈ world.runtime.completions, completion.id ≠ 0
  statuses : ∀ completion ∈ world.runtime.completions,
    CarriesStatus completion.status ∧ completion.bytesTransferred < 2 ^ 64
  live : ∀ allocation ∈ ledger.live, allocation.Valid

theorem isPowerOfTwo_ne_zero {value : Nat} (h : isPowerOfTwo value = true) : value ≠ 0 :=
  (of_decide_eq_true h).1

/-- An allocation fails and changes nothing, or hands out valid pages. -/
theorem HostedPlatformRuntime.allocatePages_cases (memory : Memory) {pageCount alignment : Nat}
    (hcount : pageCount < 2 ^ 64) (halignment : alignment < 2 ^ 64) (flags : Flags)
    (address : Nat) :
    (∃ st, HostedPlatformRuntime.allocatePages memory pageCount alignment flags address
          = (.error st, memory)
        ∧ st.code ≠ .undefined ∧ st.message.length < 2 ^ 64)
      ∨ ∃ allocation memory', HostedPlatformRuntime.allocatePages memory pageCount alignment flags
          address = (.ok allocation, memory') ∧ allocation.Valid := by
  rw [HostedPlatformRuntime.allocatePages]
  -- the checks in the order of the source; each refusal is a short message
  by_cases hzero : pageCount = 0
  · rw [if_pos hzero]
    exact .inl ⟨_, rfl, by decide, by decide⟩
  rw [if_neg hzero]
  dsimp only
  have hfits : (if alignment = 0 then kDefaultPageSize else alignment) < 2 ^ 64 := by
    split
    · decide
    · exact halignment
  generalize (if alignment = 0 then kDefaultPageSize else alignment) = alignment at hfits
  by_cases hpower : isPowerOfTwo alignment = false
  · rw [if_pos hpower]
    exact .inl ⟨_, rfl, by decide, by decide⟩
  rw [if_neg hpower]
  by_cases hknown : flags &&& ~~~kHostedKnownMemoryFlags ≠ 0
  · rw [if_pos hknown]
    exact .inl ⟨_, rfl, by decide, by decide⟩
  rw [if_neg hknown]
  by_cases hdma : flags &&& kRuntimeMemoryDma ≠ 0
  · rw [if_pos hdma]
    exact .inl ⟨_, rfl, by decide, by decide⟩
  rw [if_neg hdma]
  by_cases hlarge : pageCount > (2 ^ 64 - 1) / kDefaultPageSize
  · rw [if_pos hlarge]
    exact .inl ⟨_, rfl, by decide, by decide⟩
  rw [if_neg hlarge]
  by_cases haddress : address = 0
  · rw [if_pos haddress]
    exact .inl ⟨_, rfl, by decide, by decide⟩
  rw [if_neg haddress]
  refine .inr ⟨_, _, rfl, haddress, hzero, hcount, rfl, ?_, ?_, Decidable.not_not.mp hknown⟩
  · dsimp only
    split
    · decide
    · exact Bool.eq_true_of_not_eq_false hpower
  · dsimp only
    split
    · decide
    · exact hfits

theorem validateAccess_carries (device : MemoryBlockDevice) (offset length : Nat) :
    CarriesStatus (device.validateAccess offset length) := by
  rw [MemoryBlockDevice.validateAccess]
  refine carriesStatus_guard (by decide) (by decide) ?_
  refine carriesStatus_guard (by decide) (by decide) ?_
  refine carriesStatus_guard (by decide) (by decide) ?_
  exact carriesStatus_guard (by decide) (by decide) (carriesStatus_ok ())

theorem validateBufferedIoRequest_carries (request : IoRequest) (length : Nat) :
    CarriesStatus (validateBufferedIoRequest request length) := by
  rw [validateBufferedIoRequest]
  refine carriesStatus_guard (by decide) (by decide) ?_
  refine carriesStatus_guard (by decide) (by decide) ?_
  exact carriesStatus_guard (by decide) (by decide) (carriesStatus_ok ())

theorem effectiveRequestLength_lt (request : IoRequest) :
    effectiveRequestLength request < 2 ^ 64 := by
  rw [effectiveRequestLength]
  split
  · exact request.lengthFits
  · exact request.buffer.sizeFits

/-- What one request answers can be carried. -/
theorem executeIoRequest_carries {device device' : MemoryBlockDevice} {memory memory' : Memory}
    {request : IoRequest} {status : Result Unit} {bytesTransferred : Nat}
    (h : executeIoRequest device memory request
      = some (status, bytesTransferred, device', memory')) :
    CarriesStatus status ∧ bytesTransferred < 2 ^ 64 := by
  have hlength := effectiveRequestLength_lt request
  have hbuffered := validateBufferedIoRequest_carries request (effectiveRequestLength request)
  have haccess := validateAccess_carries device request.offset (effectiveRequestLength request)
  rw [executeIoRequest] at h
  -- a status comes from the request check, from the device, or is a success
  cases hop : request.operation with
  | read =>
      rw [hop] at h
      cases hvalid : validateBufferedIoRequest request (effectiveRequestLength request) with
      | error st =>
          rw [hvalid] at h hbuffered
          cases h
          exact ⟨hbuffered, by decide⟩
      | ok done =>
          rw [hvalid] at h
          dsimp only [MemoryBlockDevice.read] at h
          cases hread : device.validateAccess request.offset (effectiveRequestLength request) with
          | error st =>
              rw [hread] at h haccess
              cases h
              exact ⟨haccess, by decide⟩
          | ok done =>
              rw [hread] at h
              cases h
              exact ⟨carriesStatus_ok (), hlength⟩
  | write =>
      rw [hop] at h
      cases hvalid : validateBufferedIoRequest request (effectiveRequestLength request) with
      | error st =>
          rw [hvalid] at h hbuffered
          cases h
          exact ⟨hbuffered, by decide⟩
      | ok done =>
          rw [hvalid] at h
          dsimp only [MemoryBlockDevice.write] at h
          cases hwrite : device.validateAccess request.offset (effectiveRequestLength request) with
          | error st =>
              rw [hwrite] at h haccess
              cases h
              exact ⟨haccess, by decide⟩
          | ok done =>
              rw [hwrite] at h
              cases h
              exact ⟨carriesStatus_ok (), hlength⟩
  | flush =>
      rw [hop] at h
      dsimp only at h
      split at h
      · cases h
        exact ⟨carriesStatus_error (by decide) (by decide), by decide⟩
      · cases h
        exact ⟨haccess, by decide⟩
  | unknown =>
      rw [hop] at h
      cases h

/-- The completions after one round: those before, and at most one new one. -/
theorem IoWorld.serve_carries (world : IoWorld) (request : IoRequest) :
    ∀ completion ∈ (world.serve request).runtime.completions,
      completion ∈ world.runtime.completions
        ∨ completion.id = world.runtime.requestId request ∧ CarriesStatus completion.status
          ∧ completion.bytesTransferred < 2 ^ 64 := by
  rw [IoWorld.serve]
  cases world.runtime.blockDevice with
  | none =>
      intro completion hmem
      rcases List.mem_append.mp hmem with hmem | hmem
      · exact .inl hmem
      · obtain rfl := List.mem_singleton.mp hmem
        exact .inr ⟨rfl, carriesStatus_error (by decide) (by decide), Nat.two_pow_pos 64⟩
  | some device =>
      dsimp only
      cases hexecute : executeIoRequest device world.memory request with
      | none => exact fun completion hmem => .inl hmem
      | some outcome =>
          obtain ⟨status, bytesTransferred, device', memory'⟩ := outcome
          intro completion hmem
          rcases List.mem_append.mp hmem with hmem | hmem
          · exact .inl hmem
          · obtain rfl := List.mem_singleton.mp hmem
            exact .inr ⟨rfl, executeIoRequest_carries hexecute⟩

/-- A batch keeps what the checks need. -/
theorem IoWorld.foldl_serve_carries {requests : List IoRequest}
    (hknown : ∀ request ∈ requests, request.operation ≠ .unknown) {world : IoWorld}
    {assigned : Nat} (hcounter : world.runtime.nextIoRequestId = (assigned + 1) % 2 ^ 64)
    (hids : assigned < 2 ^ 64 → ∀ completion ∈ world.runtime.completions, completion.id ≠ 0)
    (hstatuses : ∀ completion ∈ world.runtime.completions,
      CarriesStatus completion.status ∧ completion.bytesTransferred < 2 ^ 64) :
    (requests.foldl IoWorld.serve world).runtime.nextIoRequestId
        = (assigned + unnumbered requests + 1) % 2 ^ 64
      ∧ (assigned + unnumbered requests < 2 ^ 64 →
        ∀ completion ∈ (requests.foldl IoWorld.serve world).runtime.completions,
          completion.id ≠ 0)
      ∧ ∀ completion ∈ (requests.foldl IoWorld.serve world).runtime.completions,
        CarriesStatus completion.status ∧ completion.bytesTransferred < 2 ^ 64 := by
  -- induction on the batch: each request advances the counter only when it has no id
  induction requests generalizing world assigned with
  | nil => exact ⟨hcounter, hids, hstatuses⟩
  | cons request rest ih =>
      obtain ⟨-, -, -, hnext⟩ := world.serve_completions (hknown request List.mem_cons_self)
      have hserved := world.serve_carries request
      have hcount : unnumbered (request :: rest) = unnumbered [request] + unnumbered rest :=
        unnumbered_append [request] rest
      have hone : unnumbered [request] = if request.id = 0 then 1 else 0 := by
        rw [unnumbered, List.countP_singleton]
        simp
      rw [hcount, ← Nat.add_assoc, List.foldl_cons]
      refine ih (fun other hother => hknown other (List.mem_cons_of_mem _ hother)) ?_ ?_ ?_
      · rw [hnext, HostedPlatformRuntime.nextAfter, hone, hcounter]
        split <;> omega
      · intro hlt completion hmem
        rcases hserved completion hmem with hmem | ⟨hid, -⟩
        · exact hids (by omega) completion hmem
        · rw [hid, HostedPlatformRuntime.requestId, hcounter]
          rw [hone] at hlt
          split
          · rename_i hzero
            rw [if_pos hzero] at hlt
            omega
          · assumption
      · intro completion hmem
        rcases hserved completion hmem with hmem | ⟨-, hstatus⟩
        · exact hstatuses completion hmem
        · exact hstatus

/-- Every direct call keeps what the checks need. -/
theorem directStep_carries {world : IoWorld} {ledger : Ledger} (h : world.Carries ledger)
    (call : RuntimeCall) :
    (directStep world call).2.Carries (ledger.track (call, (directStep world call).1)) := by
  cases call with
  | getCapabilities => exact h
  | allocatePages pageCount alignment flags address =>
      rw [directStep]
      rcases HostedPlatformRuntime.allocatePages_cases world.memory pageCount.toNat_lt
        alignment.toNat_lt flags address with ⟨st, heq, -⟩ | ⟨allocation, memory', heq, hvalid⟩
      · rw [heq]
        exact h
      · rw [heq]
        refine ⟨h.counter, h.queue, h.ids, h.statuses, fun other hother => ?_⟩
        rcases List.mem_cons.mp hother with rfl | hother
        · exact hvalid
        · exact h.live other hother
  | freePages allocation =>
      rw [directStep]
      cases HostedPlatformRuntime.freePages allocation with
      | error st => exact h
      | ok done =>
          exact ⟨h.counter, h.queue, h.ids, h.statuses,
            fun other hother => h.live other (List.mem_of_mem_erase hother)⟩
  | io call =>
      rw [directStep]
      cases call with
      | submitIoBatch requests =>
          rcases ioStep_submit_cases world requests h.queue with
            ⟨st, heq⟩ | ⟨submission, -, hroom, hknown, -, -, heq⟩
          · rw [heq]
            exact h
          · rw [heq]
            obtain ⟨hcounter, hids, hstatuses⟩ :=
              IoWorld.foldl_serve_carries hknown h.counter h.ids h.statuses
            refine ⟨hcounter, ?_, hids, hstatuses, h.live⟩
            show (requests.foldl IoWorld.serve world).runtime.completions.length
              ≤ kHostedMaxOutstandingIo
            rw [IoWorld.length_foldl_serve hknown]
            exact hroom
      | pollIoCompletions size =>
          rcases ioStep_poll_cases world size with ⟨st, heq⟩ | heq
          · rw [heq]
            exact h
          · rw [heq]
            refine ⟨h.counter, ?_, fun hlt completion hmem => ?_, fun completion hmem => ?_, h.live⟩
            · show (world.runtime.completions.drop size).length ≤ kHostedMaxOutstandingIo
              rw [List.length_drop]
              exact Nat.le_trans (Nat.sub_le _ _) h.queue
            · exact h.ids hlt completion (List.mem_of_mem_drop hmem)
            · exact h.statuses completion (List.mem_of_mem_drop hmem)
      | callerWrites memory => exact ⟨h.counter, h.queue, h.ids, h.statuses, h.live⟩

/-! ## One call through the loopback -/

section OneCall

variable {provider : CAbiRuntimeProvider} {ledger : Ledger}

theorem abiStatusOk_okAbiStatus : CAbiPlatformRuntime.abiStatusOk okAbiStatus = true := rfl

/-- The table of the provider is complete. -/
theorem validate_runtimeTable :
    CAbiPlatformRuntime.validate CAbiRuntimeProvider.runtimeTable = .ok () := rfl

theorem throughCallback_runtimeTable {α γ : Type} (callback : γ)
    (call : γ → Result α × CAbiRuntimeProvider) :
    CAbiPlatformRuntime.throughCallback CAbiRuntimeProvider.runtimeTable provider (some callback)
      call = call callback := rfl

/-- The capabilities come through. -/
theorem loopback_getCapabilities :
    CAbiPlatformRuntime.getCapabilities CAbiRuntimeProvider.runtimeTable provider
      = (provider.runtime.getCapabilities, provider) := by
  obtain ⟨blockSize, hasDevice, hfits, hcapabilities⟩ : ∃ (blockSize : Nat) (hasDevice : Bool),
      blockSize < 2 ^ 64 ∧ provider.runtime.getCapabilities
        = { pageSize := kDefaultPageSize, blockSize, maxIoRequestSize := kHostedMaxIoRequestSize,
            maxIoBatchSize := kHostedMaxIoBatchSize, maxOutstandingIo := kHostedMaxOutstandingIo,
            supportsFlush := hasDevice, supportsBarriers := hasDevice } := by
    rw [HostedPlatformRuntime.getCapabilities]
    cases provider.runtime.blockDevice with
    | none => exact ⟨0, false, by decide, rfl⟩
    | some device => exact ⟨device.blockSize, true, device.blockSizeFits, rfl⟩
  have hcall : provider.getCapabilities false = (okAbiStatus, some
      { pageSize := kDefaultPageSize, blockSize, maxIoRequestSize := kHostedMaxIoRequestSize
        maxIoBatchSize := kHostedMaxIoBatchSize, maxOutstandingIo := kHostedMaxOutstandingIo
        supportsAsyncIo := 0, supportsFlush := CAbiRuntimeProvider.abiBool hasDevice
        supportsBarriers := CAbiRuntimeProvider.abiBool hasDevice
        supportsPhysicalAddresses := 0, supportsDmaMemory := 0 }, provider) := by
    rw [CAbiRuntimeProvider.getCapabilities, if_neg Bool.false_ne_true, hcapabilities]
    rfl
  rw [CAbiPlatformRuntime.getCapabilities, validate_runtimeTable,
    show CAbiRuntimeProvider.runtimeTable.getCapabilities
      = some (CAbiRuntimeProvider.getCapabilities false) from rfl]
  dsimp only
  rw [hcall, hcapabilities]
  dsimp only [Option.getD_some, CAbiPlatformRuntime.fromAbiCapabilities]
  rw [sizeOrZero_of_lt hfits]
  cases hasDevice <;> rfl

/-- An allocation comes out of the translations as it went in. -/
theorem fromAbiPageAllocation_toAbi {allocation : RuntimePageAllocation} (h : allocation.Valid) :
    fromAbiPageAllocation (toAbiPageAllocation allocation) = allocation
      ∧ providerPageAllocation (toAbiPageAllocation allocation) = allocation := by
  have hsize : allocation.pageSize < 2 ^ 64 := by
    rw [h.pageSize]
    decide
  have hflags := (fromAbiMemoryFlags_toAbi h.flags).1
  constructor
  · rw [fromAbiPageAllocation, toAbiPageAllocation]
    dsimp only
    rw [sizeOrZero_of_lt h.pageCountFits, sizeOrZero_of_lt hsize, sizeOrZero_of_lt h.alignmentFits,
      hflags]
  · rw [providerPageAllocation, toAbiPageAllocation]
    dsimp only
    rw [Nat.mod_eq_of_lt h.pageCountFits, Nat.mod_eq_of_lt hsize, Nat.mod_eq_of_lt h.alignmentFits,
      hflags]

/-- Valid allocations pass the checks on their fields, on both sides. -/
theorem RuntimePageAllocation.Valid.checks {allocation : RuntimePageAllocation}
    (h : allocation.Valid) :
    ¬ (allocation.data = 0 ∨ allocation.pageCount = 0 ∨ allocation.pageSize = 0
        ∨ allocation.alignment = 0 ∨ isPowerOfTwo allocation.alignment = false)
      ∧ ¬ (fitsSizeT (toAbiPageAllocation allocation).pageCount = false
        ∨ fitsSizeT (toAbiPageAllocation allocation).pageSize = false
        ∨ fitsSizeT (toAbiPageAllocation allocation).alignment = false) := by
  have hsize : allocation.pageSize ≠ 0 := by
    rw [h.pageSize]
    decide
  have hfits : fitsSizeT allocation.pageSize = true := by
    rw [h.pageSize]
    rfl
  refine ⟨not_or.mpr ⟨h.data, not_or.mpr ⟨h.pageCount, not_or.mpr ⟨hsize, not_or.mpr
    ⟨isPowerOfTwo_ne_zero h.alignment, ?_⟩⟩⟩⟩, ?_⟩
  · rw [h.alignment]
    exact Bool.true_eq_false.mp
  · dsimp only [toAbiPageAllocation]
    rw [fitsSizeT_of_lt h.pageCountFits, hfits, fitsSizeT_of_lt h.alignmentFits]
    decide

/-- What the provider makes of an allocation. -/
theorem provider_allocatePages {pageCount alignment : Nat} (hcount : pageCount < 2 ^ 64)
    (halignment : alignment < 2 ^ 64) {flags : Flags}
    (hflags : flags &&& ~~~kKnownRuntimeMemoryFlags = 0) (address : Nat) :
    provider.allocatePages false pageCount alignment (toAbiMemoryFlags flags) address
      = match HostedPlatformRuntime.allocatePages provider.memory pageCount alignment flags
          address with
        | (.error st, memory) =>
          CAbiRuntimeProvider.unwritten ({ provider with memory }.storeStatus (.error st))
        | (.ok allocation, memory) =>
          (okAbiStatus, some (toAbiPageAllocation allocation), { provider with memory }) := by
  obtain ⟨hback, hknown⟩ := fromAbiMemoryFlags_toAbi hflags
  have hfits : ¬ (fitsSizeT pageCount = false ∨ fitsSizeT alignment = false) := by
    rw [fitsSizeT_of_lt hcount, fitsSizeT_of_lt halignment]
    decide
  rw [CAbiRuntimeProvider.allocatePages, if_neg Bool.false_ne_true,
    if_neg (fun hne => hne hknown), if_neg hfits,
    Nat.mod_eq_of_lt hcount, Nat.mod_eq_of_lt halignment, hback]
  rcases HostedPlatformRuntime.allocatePages_cases provider.memory hcount halignment flags address
    with ⟨st, heq, -⟩ | ⟨allocation, memory', heq, hvalid⟩
  · rw [heq]
  · rw [heq]
    have hvalidated : CAbiRuntimeProvider.validateRuntimeAllocation allocation = .ok () := by
      rw [CAbiRuntimeProvider.validateRuntimeAllocation, if_neg (fun hne => hne hvalid.flags),
        if_neg hvalid.checks.1]
    dsimp only
    rw [hvalidated]

/-- Allocations come through. -/
theorem loopback_allocatePages {pageCount alignment : Nat} (hcount : pageCount < 2 ^ 64)
    (halignment : alignment < 2 ^ 64) {flags : Flags}
    (hflags : flags &&& ~~~kKnownRuntimeMemoryFlags = 0) (address : Nat) :
    ∃ provider', CAbiPlatformRuntime.allocatePages CAbiRuntimeProvider.runtimeTable provider
        pageCount alignment flags address
        = ((HostedPlatformRuntime.allocatePages provider.memory pageCount alignment flags address).1,
          provider')
      ∧ provider'.toIoWorld = { provider.toIoWorld with
          memory := (HostedPlatformRuntime.allocatePages provider.memory pageCount alignment flags
            address).2 } := by
  have hcall := @provider_allocatePages provider _ _ hcount halignment _ hflags address
  rw [CAbiPlatformRuntime.allocatePages,
    show CAbiRuntimeProvider.runtimeTable.allocatePages
      = some (CAbiRuntimeProvider.allocatePages false) from rfl,
    throughCallback_runtimeTable]
  rw [if_neg (fun hne => hne hflags), hcall]
  rcases HostedPlatformRuntime.allocatePages_cases provider.memory hcount halignment flags address
    with ⟨st, heq, hcode, hmessage⟩ | ⟨allocation, memory', heq, hvalid⟩
  · rw [heq]
    dsimp only [CAbiRuntimeProvider.unwritten]
    rw [if_pos (abiStatusOk_storeStatus _), abiError_storeStatus _ hcode hmessage]
    exact ⟨_, rfl, storeStatus_toIoWorld _ _⟩
  · have hknown := (fromAbiMemoryFlags_toAbi hvalid.flags).2
    obtain ⟨hchecks, hfits⟩ := hvalid.checks
    -- the caller's side checks the fields again; the runtime's allocations pass
    have hfields : ¬ ((toAbiPageAllocation allocation).data = 0
        ∨ (toAbiPageAllocation allocation).pageCount = 0
        ∨ (toAbiPageAllocation allocation).pageSize = 0
        ∨ (toAbiPageAllocation allocation).alignment = 0) := by
      rintro (h | h | h | h)
      · exact hvalid.data h
      · exact hvalid.pageCount h
      · exact hchecks (.inr (.inr (.inl h)))
      · exact isPowerOfTwo_ne_zero hvalid.alignment h
    rw [heq]
    dsimp only [Option.getD_some]
    rw [abiStatusOk_okAbiStatus, if_neg Bool.true_eq_false.mp]
    have hpower : isPowerOfTwo ((toAbiPageAllocation allocation).alignment % 2 ^ 64) ≠ false := by
      rw [show (toAbiPageAllocation allocation).alignment = allocation.alignment from rfl,
        Nat.mod_eq_of_lt hvalid.alignmentFits, hvalid.alignment]
      decide
    rw [if_neg hfits, if_neg (fun hne => hne hknown), if_neg hfields, if_neg hpower,
      (fromAbiPageAllocation_toAbi hvalid).1]
    exact ⟨_, rfl, rfl⟩

/-- Freeing a valid allocation comes through. -/
theorem loopback_freePages {allocation : RuntimePageAllocation} (h : allocation.Valid) :
    ∃ provider', CAbiPlatformRuntime.freePages CAbiRuntimeProvider.runtimeTable provider allocation
        = (HostedPlatformRuntime.freePages allocation, provider')
      ∧ provider'.toIoWorld = provider.toIoWorld := by
  have hfreed : HostedPlatformRuntime.freePages allocation = .ok () := by
    rw [HostedPlatformRuntime.freePages, if_neg h.data, h.alignment, if_neg Bool.true_eq_false.mp]
  obtain ⟨hchecks, hfits⟩ := h.checks
  have hknown := (fromAbiMemoryFlags_toAbi h.flags).2
  have hcall : provider.freePages false (toAbiPageAllocation allocation)
      = provider.storeStatus (HostedPlatformRuntime.freePages allocation) := by
    have hchecks' : ¬ ((toAbiPageAllocation allocation).data = 0
        ∨ (toAbiPageAllocation allocation).pageCount = 0
        ∨ (toAbiPageAllocation allocation).pageSize = 0
        ∨ (toAbiPageAllocation allocation).alignment = 0
        ∨ isPowerOfTwo ((toAbiPageAllocation allocation).alignment % 2 ^ 64) = false) := by
      rw [show (toAbiPageAllocation allocation).alignment = allocation.alignment from rfl,
        Nat.mod_eq_of_lt h.alignmentFits]
      exact hchecks
    rw [CAbiRuntimeProvider.freePages, if_neg Bool.false_ne_true,
      if_neg (fun hne => hne hknown), if_neg hfits, if_neg hchecks',
      (fromAbiPageAllocation_toAbi h).2]
  rw [CAbiPlatformRuntime.freePages,
    show CAbiRuntimeProvider.runtimeTable.freePages
      = some (CAbiRuntimeProvider.freePages false) from rfl, throughCallback_runtimeTable]
  rw [if_neg (fun hne => hne h.flags), if_neg hchecks, hcall, hfreed]
  exact ⟨_, rfl, rfl⟩

theorem validateIoRequests_carries (requests : List IoRequest) :
    CarriesStatus (validateIoRequests requests) := by
  induction requests with
  | nil => exact carriesStatus_ok ()
  | cons request rest ih =>
      rw [validateIoRequests]
      refine carriesStatus_guard (by decide) (by decide) ?_
      cases request.operation with
      | read => exact ih
      | write => exact ih
      | flush => exact ih
      | unknown => exact carriesStatus_error (by decide) (by decide)

/-- The errors of a submission can be carried. -/
theorem submitIoBatch_carries (world : IoWorld) (requests : List IoRequest) :
    CarriesStatus (world.runtime.submitIoBatch world.memory requests).1 := by
  rw [HostedPlatformRuntime.submitIoBatch]
  by_cases hempty : requests = []
  · rw [if_pos hempty]
    exact carriesStatus_error (by decide) (by decide)
  rw [if_neg hempty]
  by_cases hbatch : requests.length > kHostedMaxIoBatchSize
  · rw [if_pos hbatch]
    exact carriesStatus_error (by decide) (by decide)
  rw [if_neg hbatch]
  split
  · exact carriesStatus_error (by decide) (by decide)
  have hvalidate := validateIoRequests_carries requests
  cases hvalid : validateIoRequests requests with
  | error st =>
      rw [hvalid] at hvalidate
      intro st' h
      cases h
      exact hvalidate st rfl
  | ok done =>
      obtain ⟨submission, hloop, -, -⟩ := HostedPlatformRuntime.executeIoRequests_eq requests
        (validateIoRequests_ok hvalid) world { submittedCount := requests.length } 0
      dsimp only
      rw [hloop]
      exact carriesStatus_ok submission

/-- The id of the first request is the one the consumer checks for. -/
theorem firstRequestId_checks (h : provider.toIoWorld.Carries ledger) {requests : List IoRequest}
    (hne : requests ≠ []) (hassigned : ledger.assigned + unnumbered requests < 2 ^ 64)
    {first : Nat} (hfirst : first = (requests.head?.map provider.runtime.requestId).getD 0) :
    ¬ (first = 0 ∨ ∃ front ∈ requests.head?, front.id ≠ 0 ∧ first ≠ front.id) := by
  obtain ⟨request, rest, rfl⟩ := List.exists_cons_of_ne_nil hne
  have hid : first = provider.runtime.requestId request := hfirst
  rw [HostedPlatformRuntime.requestId] at hid
  have hcount : unnumbered (request :: rest) = unnumbered [request] + unnumbered rest :=
    unnumbered_append [request] rest
  have hcounter : provider.runtime.nextIoRequestId = (ledger.assigned + 1) % 2 ^ 64 := h.counter
  by_cases hzero : request.id = 0
  · have hone : unnumbered [request] = 1 := by
      rw [unnumbered, List.countP_singleton, decide_eq_true hzero]
      rfl
    rw [if_pos hzero, hcounter] at hid
    rintro (h0 | ⟨front, hfront, hown, -⟩)
    · omega
    · obtain rfl : request = front := Option.some.inj hfront
      exact hown hzero
  · rw [if_neg hzero] at hid
    rintro (h0 | ⟨front, hfront, -, hdiffers⟩)
    · exact hzero (hid ▸ h0)
    · obtain rfl : request = front := Option.some.inj hfront
      exact hdiffers hid

/-- Submissions come through. -/
theorem loopback_submitIoBatch (h : provider.toIoWorld.Carries ledger) {requests : List IoRequest}
    (hlength : requests.length < 2 ^ 64) (hportable : ∀ request ∈ requests, request.Portable)
    (hassigned : (ledger.track (.io (.submitIoBatch requests),
      (directStep provider.toIoWorld (.io (.submitIoBatch requests))).1)).assigned < 2 ^ 64) :
    ∃ provider', CAbiPlatformRuntime.submitIoBatch CAbiRuntimeProvider.runtimeTable provider
        requests
        = ((provider.runtime.submitIoBatch provider.memory requests).1, provider')
      ∧ provider'.toIoWorld
        = ⟨(provider.runtime.submitIoBatch provider.memory requests).2.1,
          (provider.runtime.submitIoBatch provider.memory requests).2.2⟩ := by
  have hcarries := submitIoBatch_carries provider.toIoWorld requests
  rw [CAbiPlatformRuntime.submitIoBatch,
    show CAbiRuntimeProvider.runtimeTable.submitIoBatch
      = some (CAbiRuntimeProvider.submitIoBatch false true) from rfl,
    throughCallback_runtimeTable]
  by_cases hempty : requests = []
  · rw [if_pos hempty]
    have hdirect : provider.runtime.submitIoBatch provider.memory requests
        = (errorResult .invalidArgument (ascii "I/O batch must be non-empty"), provider.runtime,
          provider.memory) := by
      rw [HostedPlatformRuntime.submitIoBatch, if_pos hempty]
    rw [hdirect]
    exact ⟨provider, rfl, rfl⟩
  -- the batch crosses the boundary unchanged
  obtain ⟨abiRequests, hto, hfrom, hcount⟩ := mapM_fromAbiIoRequest_toAbi hportable
  have hsome : ¬(false = true ∨ abiRequests.length = 0) := by
    rw [hcount]
    rintro (hmissing | hzero)
    · cases hmissing
    · exact hempty (List.length_eq_zero_iff.mp hzero)
  have hfits : fitsSizeT abiRequests.length = true := fitsSizeT_of_lt (by rw [hcount]; exact hlength)
  rcases ioStep_submit_cases provider.toIoWorld requests h.queue with
    ⟨st, heq⟩ | ⟨submission, -, -, -, hsubmitted, hfirst, heq⟩
  · -- the runtime refuses the batch; its status is stored and read back
    have hresult : (provider.runtime.submitIoBatch provider.memory requests).1 = .error st :=
      IoReply.submission.inj (congrArg Prod.fst heq)
    obtain ⟨hcode, hmessage⟩ := hcarries st hresult
    have hcall : provider.submitIoBatch false true abiRequests
        = ((CAbiRuntimeProvider.storeStatus { provider with
            runtime := (provider.runtime.submitIoBatch provider.memory requests).2.1
            memory := (provider.runtime.submitIoBatch provider.memory requests).2.2 }
              (.error st)).1, none,
          (CAbiRuntimeProvider.storeStatus { provider with
            runtime := (provider.runtime.submitIoBatch provider.memory requests).2.1
            memory := (provider.runtime.submitIoBatch provider.memory requests).2.2 }
              (.error st)).2) := by
      rw [CAbiRuntimeProvider.submitIoBatch, if_neg hsome, hfits, if_neg Bool.true_eq_false.mp,
        if_neg Bool.true_eq_false.mp, hfrom]
      dsimp only
      rw [hresult]
      rfl
    rw [if_neg hempty, hto]
    dsimp only
    rw [hcall, hresult]
    dsimp only
    rw [if_pos (abiStatusOk_storeStatus _), abiError_storeStatus _ hcode hmessage]
    exact ⟨_, rfl, storeStatus_toIoWorld _ _⟩
  · have hresult : (provider.runtime.submitIoBatch provider.memory requests).1 = .ok submission :=
      IoReply.submission.inj (congrArg Prod.fst heq)
    have htracked : ledger.assigned + unnumbered requests < 2 ^ 64 := by
      rw [directStep, heq] at hassigned
      exact hassigned
    have hchecks := firstRequestId_checks h hempty htracked hfirst
    have hcall : provider.submitIoBatch false true abiRequests
        = (okAbiStatus, some ⟨requests.length, submission.firstRequestId⟩, { provider with
            runtime := (provider.runtime.submitIoBatch provider.memory requests).2.1
            memory := (provider.runtime.submitIoBatch provider.memory requests).2.2 }) := by
      rw [CAbiRuntimeProvider.submitIoBatch, if_neg hsome, hfits, if_neg Bool.true_eq_false.mp,
        if_neg Bool.true_eq_false.mp, hfrom]
      dsimp only
      rw [hresult]
      dsimp only
      rw [if_neg (fun hne => hne hsubmitted), if_neg hchecks, hsubmitted]
    rw [if_neg hempty, hto]
    dsimp only
    rw [hcall, hresult]
    dsimp only [Option.getD_some]
    have hfits' : fitsSizeT requests.length ≠ false := by
      rw [fitsSizeT_of_lt hlength]
      decide
    rw [abiStatusOk_okAbiStatus, if_neg Bool.true_eq_false.mp, if_neg hfits',
      if_neg (fun hne => hne rfl), if_neg hchecks, Nat.mod_eq_of_lt hlength]
    rw [← hsubmitted]
    exact ⟨_, rfl, rfl⟩

/-- The provider's loop answers as many completions as it is given. -/
theorem length_toAbiIoCompletions (messages : List Bytes) (completions : List IoCompletion) :
    (CAbiRuntimeProvider.toAbiIoCompletions messages completions).1.length
      = completions.length := by
  induction completions generalizing messages with
  | nil => rfl
  | cons completion rest ih =>
      rw [CAbiRuntimeProvider.toAbiIoCompletions, List.length_cons, List.length_cons, ih]

/-- Polls come through. -/
theorem loopback_pollIoCompletions (h : provider.toIoWorld.Carries ledger)
    (hassigned : ledger.assigned < 2 ^ 64) {size : Nat} (hsize : size < 2 ^ 64) :
    ∃ provider', CAbiPlatformRuntime.pollIoCompletions CAbiRuntimeProvider.runtimeTable provider
        size = ((provider.runtime.pollIoCompletions size).1, provider')
      ∧ provider'.toIoWorld = { provider.toIoWorld with
          runtime := (provider.runtime.pollIoCompletions size).2 } := by
  rw [CAbiPlatformRuntime.pollIoCompletions,
    show CAbiRuntimeProvider.runtimeTable.pollIoCompletions
      = some (CAbiRuntimeProvider.pollIoCompletions false true) from rfl,
    throughCallback_runtimeTable]
  by_cases hzero : size = 0
  · rw [if_pos hzero, HostedPlatformRuntime.pollIoCompletions, if_pos hzero]
    exact ⟨provider, rfl, rfl⟩
  have hpolled : provider.runtime.pollIoCompletions size
      = (.ok (provider.runtime.completions.take size),
        { provider.runtime with completions := provider.runtime.completions.drop size }) := by
    rw [HostedPlatformRuntime.pollIoCompletions, if_neg hzero, pollCompletions_eq]
  -- what waits in the queue can be carried, so it is read back as it was
  have hportable : ∀ completion ∈ provider.runtime.completions.take size, completion.Portable := by
    intro completion hmem
    have hqueued := List.mem_of_mem_take hmem
    obtain ⟨hstatus, hbytes⟩ := h.statuses completion hqueued
    exact ⟨h.ids hassigned completion hqueued, hstatus, hbytes⟩
  have htaken : ¬ (provider.runtime.completions.take size).length > size :=
    Nat.not_lt.mpr (List.length_take_le _ _)
  have hcall : provider.pollIoCompletions false true size
      = (okAbiStatus, some (CAbiRuntimeProvider.toAbiIoCompletions []
          (provider.runtime.completions.take size)).1, { provider with
            runtime := { provider.runtime with
              completions := provider.runtime.completions.drop size }
            completionStatusMessages := (CAbiRuntimeProvider.toAbiIoCompletions []
              (provider.runtime.completions.take size)).2 }) := by
    have hasked : ¬(false = true ∨ size = 0) := by
      rintro (hmissing | hnone)
      · cases hmissing
      · exact hzero hnone
    rw [CAbiRuntimeProvider.pollIoCompletions, if_neg hasked, fitsSizeT_of_lt hsize,
      if_neg Bool.true_eq_false.mp, if_neg Bool.true_eq_false.mp, Nat.mod_eq_of_lt hsize, hpolled]
    dsimp only
    rw [if_neg htaken]
  have hinvalid : ¬ (fitsSizeT (CAbiRuntimeProvider.toAbiIoCompletions []
        (provider.runtime.completions.take size)).1.length = false
      ∨ (CAbiRuntimeProvider.toAbiIoCompletions []
        (provider.runtime.completions.take size)).1.length > size) := by
    rw [length_toAbiIoCompletions, fitsSizeT_of_lt (by omega)]
    rintro (hfalse | hgt)
    · exact Bool.true_eq_false.mp hfalse
    · exact htaken hgt
  rw [if_neg hzero, hcall, hpolled]
  dsimp only [Option.getD_some]
  rw [abiStatusOk_okAbiStatus, if_neg Bool.true_eq_false.mp, if_neg hinvalid,
    mapM_fromAbiIoCompletion_toAbi hportable [] rfl]
  exact ⟨_, rfl, rfl⟩

/-- **ONE CALL**: a call within the rules gets the same answer through the
    loopback, and leaves the same runtime and the same memory. -/
theorem loopbackStep_eq (h : provider.toIoWorld.Carries ledger) {call : RuntimeCall}
    (hadmits : ledger.Admits call)
    (hassigned : (ledger.track (call, (directStep provider.toIoWorld call).1)).assigned < 2 ^ 64) :
    (loopbackStep provider call).1 = (directStep provider.toIoWorld call).1
      ∧ (loopbackStep provider call).2.toIoWorld = (directStep provider.toIoWorld call).2 := by
  cases call with
  | getCapabilities =>
      rw [loopbackStep, loopback_getCapabilities]
      exact ⟨rfl, rfl⟩
  | allocatePages pageCount alignment flags address =>
      obtain ⟨provider', heq, hworld⟩ := @loopback_allocatePages provider _ _ pageCount.toNat_lt
        alignment.toNat_lt _ hadmits.1 address
      rw [loopbackStep, heq]
      exact ⟨rfl, hworld⟩
  | freePages allocation =>
      obtain ⟨provider', heq, hworld⟩ := @loopback_freePages provider _ (h.live allocation hadmits)
      rw [loopbackStep, heq]
      exact ⟨rfl, hworld⟩
  | io call =>
      cases call with
      | submitIoBatch requests =>
          obtain ⟨provider', heq, hworld⟩ :=
            loopback_submitIoBatch h hadmits.1 hadmits.2 hassigned
          rw [loopbackStep, heq]
          exact ⟨rfl, hworld⟩
      | pollIoCompletions size =>
          -- a poll assigns no id
          have hsame : ledger.assigned < 2 ^ 64 := by
            rw [directStep] at hassigned
            rcases ioStep_poll_cases provider.toIoWorld size with ⟨st, heq⟩ | heq
            · rw [heq] at hassigned
              exact hassigned
            · rw [heq] at hassigned
              exact hassigned
          obtain ⟨provider', heq, hworld⟩ := loopback_pollIoCompletions h hsame hadmits
          rw [loopbackStep, heq]
          exact ⟨rfl, hworld⟩
      | callerWrites memory => exact ⟨rfl, rfl⟩

end OneCall

/-! ## Whole runs -/

/-- What is live and how many ids are assigned after direct calls. -/
def ledgerAfter (device : Option MemoryBlockDevice) (memory : Memory) (calls : List RuntimeCall) :
    Ledger :=
  (Run.trace directStep (.start device memory) calls).foldl Ledger.track {}

/-- The number of assigned ids never goes down. -/
theorem Ledger.assigned_le_foldl (entries : List (RuntimeCall × RuntimeReply)) (ledger : Ledger) :
    ledger.assigned ≤ (entries.foldl Ledger.track ledger).assigned := by
  induction entries generalizing ledger with
  | nil => exact Nat.le_refl _
  | cons entry rest ih =>
      refine Nat.le_trans ?_ (ih (ledger.track entry))
      unfold Ledger.track
      split <;> simp

/-- The runtime keeps what the checks need through every run. -/
theorem direct_run_carries (device : Option MemoryBlockDevice) (memory : Memory)
    (calls : List RuntimeCall) :
    (Run.final directStep (.start device memory) calls).Carries
      (ledgerAfter device memory calls) := by
  refine Run.final_refines (R := fun (world : IoWorld) (ledger : Ledger) => world.Carries ledger)
    ?_ calls (.start device memory) {} ?_
  · intro world ledger call h
    exact directStep_carries h call
  · refine ⟨rfl, Nat.zero_le _, ?_, ?_, ?_⟩
    · intro _ completion hmem
      cases hmem
    · intro completion hmem
      cases hmem
    · intro allocation hmem
      cases hmem

/-- **LOOPBACK**: whatever was called before, calls within the rules that leave
    fewer than 2^64 ids assigned get the same answers through the C ABI as
    directly, and leave the same device, queue and memory. -/
theorem loopback_indistinguishable (device : Option MemoryBlockDevice) (memory : Memory)
    (earlier calls : List RuntimeCall) (provider : CAbiRuntimeProvider)
    (hprovider : provider.toIoWorld = Run.final directStep (.start device memory) earlier)
    (hadmits : ∀ n call, calls[n]? = some call →
      (ledgerAfter device memory (earlier ++ calls.take n)).Admits call)
    (hassigned : (ledgerAfter device memory (earlier ++ calls)).assigned < 2 ^ 64) :
    Run.trace loopbackStep provider calls
        = Run.trace directStep (Run.final directStep (.start device memory) earlier) calls
      ∧ (Run.final loopbackStep provider calls).toIoWorld
        = Run.final directStep (.start device memory) (earlier ++ calls) := by
  have hledger : ∀ later, ledgerAfter device memory (earlier ++ later)
      = (Run.trace directStep provider.toIoWorld later).foldl Ledger.track
        (ledgerAfter device memory earlier) := by
    intro later
    rw [ledgerAfter, Run.trace_append, List.foldl_append, ← hprovider]
    rfl
  -- a bound on the ids of the whole run bounds them at every point of it
  have hbounded : ∀ n, ((Run.trace directStep provider.toIoWorld (calls.take n)).foldl Ledger.track
      (ledgerAfter device memory earlier)).assigned < 2 ^ 64 := by
    intro n
    refine Nat.lt_of_le_of_lt ?_ hassigned
    rw [hledger calls]
    conv => rhs; rw [← List.take_append_drop n calls, Run.trace_append, List.foldl_append]
    exact Ledger.assigned_le_foldl _ _
  have hinvariant := direct_run_carries device memory earlier
  rw [← hprovider] at hinvariant
  rw [Run.final_append, ← hprovider]
  refine Run.trace_eq_of_view (I := fun (world : IoWorld) (ledger : Ledger) => world.Carries ledger)
    (A := Ledger.Admits) (B := fun ledger : Ledger => ledger.assigned < 2 ^ 64)
    ?_ ?_ calls provider (ledgerAfter device memory earlier) hinvariant ?_ hbounded
  · intro world ledger call h
    exact directStep_carries h call
  · intro provider ledger call h hadmits hassigned
    exact loopbackStep_eq h hadmits hassigned
  · intro n call hcall
    rw [← hledger]
    exact hadmits n call hcall

/-- Pages are allocated, written to the device, and freed. -/
def writeBackRun : List RuntimeCall :=
  [.getCapabilities,
    .allocatePages 1 0 kRuntimeMemoryZeroed 4096,
    .io (.submitIoBatch [{ operation := .write, buffer := { data := 4096, size := 4 } },
      { id := 7, operation := .flush }]),
    .io (.pollIoCompletions 8),
    .freePages { data := 4096, pageCount := 1 }]

theorem writeBackRun_indistinguishable :
    Run.trace loopbackStep ⟨.start (some (.ofSize 8 4)) fun _ => 0, [], []⟩ writeBackRun
        = Run.trace directStep (.start (some (.ofSize 8 4)) fun _ => 0) writeBackRun
      ∧ (Run.final loopbackStep ⟨.start (some (.ofSize 8 4)) fun _ => 0, [], []⟩
          writeBackRun).toIoWorld
        = Run.final directStep (.start (some (.ofSize 8 4)) fun _ => 0) writeBackRun := by
  refine loopback_indistinguishable (some (.ofSize 8 4)) (fun _ => 0) [] writeBackRun _ rfl ?_
    (by decide)
  intro n call hcall
  rcases n with _ | _ | _ | _ | _ | n
  · cases hcall
    trivial
  · cases hcall
    exact ⟨by decide, by decide⟩
  · cases hcall
    refine ⟨by decide, fun request hrequest => ?_⟩
    rcases List.mem_cons.mp hrequest with rfl | hrequest
    · exact ⟨by decide, by decide, fun _ => ⟨by decide, by decide⟩⟩
    · obtain rfl := List.mem_singleton.mp hrequest
      exact ⟨by decide, by decide, fun hne => absurd rfl hne⟩
  · cases hcall
    exact (by decide : 8 < 2 ^ 64)
  · cases hcall
    exact List.mem_cons_self
  · cases hcall

end MattSql
