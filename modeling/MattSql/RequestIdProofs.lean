import Mathlib.Data.List.Pairwise
import MattSql.BatchedIoProofs

/-! # The ids of outstanding requests

    A request with id 0 gets the next number of the runtime's counter, every
    other request keeps the id its caller chose, and no code compares the two.
    Assigned ids never meet each other while their requests are outstanding;
    an assigned id and a chosen one can meet.

    `io_ids_apart_iff` says exactly which submissions lead there. -/

namespace MattSql

/-! ## Outstanding requests -/

/-- The requests accepted and not yet polled. -/
def trackOutstanding (outstanding : List IoRequest) : IoCall × IoReply → List IoRequest
  | (.submitIoBatch requests, .submission (.ok _)) => outstanding ++ requests
  | (.pollIoCompletions _, .polled (.ok completions)) => outstanding.drop completions.length
  | _ => outstanding

/-- No two outstanding requests have the same id when one of the ids was
    assigned by the runtime. -/
def IoWorld.IdsApart (world : IoWorld) (outstanding : List IoRequest) : Prop :=
  (world.runtime.completions.zip outstanding).Pairwise fun left right =>
    left.2.id = 0 ∨ right.2.id = 0 → left.1.id ≠ right.1.id

/-- How many requests have no id of their own. -/
def unnumbered (requests : List IoRequest) : Nat :=
  requests.countP fun request => request.id = 0

/-- The ids that a batch takes from the counter. -/
def assignedIds (next : Nat) (requests : List IoRequest) : List Nat :=
  (List.range (unnumbered requests)).map fun k => (next + k) % 2 ^ 64

/-- A batch keeps its ids apart: no id that a caller chose, for a request of the
    batch or for an outstanding one, is among those the counter is about to
    hand out, and no id chosen in the batch was assigned to an outstanding
    request. -/
def IoWorld.KeepsClear (world : IoWorld) (outstanding requests : List IoRequest) : Prop :=
  (∀ request ∈ outstanding ++ requests, request.id ≠ 0 →
      request.id ∉ assignedIds world.runtime.nextIoRequestId requests)
    ∧ ∀ request ∈ requests, request.id ≠ 0 →
      ∀ entry ∈ world.runtime.completions.zip outstanding, entry.2.id = 0 →
        entry.1.id ≠ request.id

/-! ## Numbered requests -/

/-- The requests with their ids, when the counter stands at `next`. -/
def numbered (next : Nat) : List IoRequest → List (Nat × IoRequest)
  | [] => []
  | request :: rest =>
    if request.id = 0 then (next, request) :: numbered ((next + 1) % 2 ^ 64) rest
    else (request.id, request) :: numbered next rest

theorem numbered_map_snd (next : Nat) (requests : List IoRequest) :
    (numbered next requests).map Prod.snd = requests := by
  induction requests generalizing next with
  | nil => rfl
  | cons request rest ih =>
      rw [numbered]
      split <;> rw [List.map_cons, ih]

theorem unnumbered_append (left right : List IoRequest) :
    unnumbered (left ++ right) = unnumbered left + unnumbered right :=
  List.countP_append

theorem numbered_append {next : Nat} (hnext : next < 2 ^ 64) (left right : List IoRequest) :
    numbered next (left ++ right)
      = numbered next left ++ numbered ((next + unnumbered left) % 2 ^ 64) right := by
  induction left generalizing next with
  | nil => rw [List.nil_append, numbered, List.nil_append, unnumbered, List.countP_nil,
      Nat.add_zero, Nat.mod_eq_of_lt hnext]
  | cons request rest ih =>
      rw [List.cons_append, numbered, numbered, unnumbered, List.countP_cons]
      by_cases hid : request.id = 0
      · rw [if_pos hid, if_pos hid, ih (Nat.mod_lt _ (by decide)), decide_eq_true hid, if_pos rfl,
          List.cons_append, unnumbered]
        congr 3
        omega
      · rw [if_neg hid, if_neg hid, ih hnext, decide_eq_false hid, if_neg Bool.false_ne_true,
          List.cons_append, Nat.add_zero, unnumbered]

/-- The assigned ids are the counter's. -/
theorem mem_assignedIds_iff {next id : Nat} {requests : List IoRequest} (hnext : next < 2 ^ 64) :
    id ∈ assignedIds next requests
      ↔ ∃ entry ∈ numbered next requests, entry.2.id = 0 ∧ entry.1 = id := by
  induction requests generalizing next with
  | nil => simp [assignedIds, unnumbered, numbered]
  | cons request rest ih =>
      have htail := ih (Nat.mod_lt (next + 1) (by decide : 0 < 2 ^ 64))
      by_cases hid : request.id = 0
      · have hhead : id ∈ assignedIds next (request :: rest)
            ↔ id = next ∨ id ∈ assignedIds ((next + 1) % 2 ^ 64) rest := by
          have hcount : unnumbered (request :: rest) = unnumbered rest + 1 := by
            rw [unnumbered, List.countP_cons, decide_eq_true hid]
            rfl
          rw [assignedIds, hcount, List.range_succ_eq_map, List.map_cons, List.mem_cons,
            Nat.add_zero, Nat.mod_eq_of_lt hnext, List.map_map, assignedIds]
          refine or_congr Iff.rfl ?_
          refine iff_of_eq (congrArg (id ∈ ·) (List.map_congr_left fun k _ => ?_))
          show (next + (k + 1)) % 2 ^ 64 = ((next + 1) % 2 ^ 64 + k) % 2 ^ 64
          omega
        rw [hhead, htail, numbered, if_pos hid]
        simp only [List.mem_cons, exists_eq_or_imp, hid, true_and]
        exact or_congr eq_comm Iff.rfl
      · have hhead : assignedIds next (request :: rest) = assignedIds next rest := by
          rw [assignedIds, unnumbered, List.countP_cons, decide_eq_false hid]
          rfl
        rw [hhead, ih hnext, numbered, if_neg hid]
        simp only [List.mem_cons, exists_eq_or_imp, hid, false_and, false_or]

/-- A request that has an id keeps it. -/
theorem numbered_own {next : Nat} {requests : List IoRequest} :
    ∀ entry ∈ numbered next requests, entry.2.id ≠ 0 → entry.1 = entry.2.id := by
  induction requests generalizing next with
  | nil =>
      intro entry hmem
      cases hmem
  | cons request rest ih =>
      intro entry hmem hid
      rw [numbered] at hmem
      split at hmem
      · rename_i hzero
        rcases List.mem_cons.mp hmem with rfl | hmem
        · exact absurd hzero hid
        · exact ih entry hmem hid
      · rcases List.mem_cons.mp hmem with rfl | hmem
        · rfl
        · exact ih entry hmem hid

/-- Assigned ids do not meet before the counter has gone all the way round. -/
theorem numbered_assigned_distinct {next : Nat} (hnext : next < 2 ^ 64)
    {requests : List IoRequest} (hlength : requests.length ≤ 2 ^ 64) :
    (numbered next requests).Pairwise fun left right =>
      left.2.id = 0 → right.2.id = 0 → left.1 ≠ right.1 := by
  induction requests generalizing next with
  | nil => exact List.Pairwise.nil
  | cons request rest ih =>
      rw [List.length_cons] at hlength
      rw [numbered]
      by_cases hid : request.id = 0
      · rw [if_pos hid]
        refine List.Pairwise.cons ?_ (ih (Nat.mod_lt _ (by decide)) (by omega))
        intro entry hmem _ hzero heq
        -- the ids assigned after `next` are the following ones
        have hlater := (mem_assignedIds_iff (Nat.mod_lt _ (by decide))).mpr ⟨entry, hmem, hzero, rfl⟩
        obtain ⟨k, hk, hsum⟩ := List.mem_map.mp hlater
        have hk := List.mem_range.mp hk
        have hcount : unnumbered rest ≤ rest.length := List.countP_le_length
        dsimp only at heq
        omega
      · rw [if_neg hid]
        refine List.Pairwise.cons ?_ (ih hnext (by omega))
        intro entry _ hzero
        exact absurd hzero hid

/-- The ids of a list of requests are apart exactly when no chosen id is an
    assigned one. -/
theorem numbered_apart_iff {next : Nat} (hnext : next < 2 ^ 64) {requests : List IoRequest}
    (hlength : requests.length ≤ 2 ^ 64) :
    ((numbered next requests).Pairwise fun left right =>
        left.2.id = 0 ∨ right.2.id = 0 → left.1 ≠ right.1)
      ↔ ∀ request ∈ requests, request.id ≠ 0 → request.id ∉ assignedIds next requests := by
  have hmember : ∀ request ∈ requests, ∃ entry ∈ numbered next requests, entry.2 = request := by
    intro request hrequest
    rw [← numbered_map_snd next requests] at hrequest
    exact List.mem_map.mp hrequest
  constructor
  · intro hapart request hrequest hid hassigned
    obtain ⟨entry, hentry, hzero, heq⟩ := (mem_assignedIds_iff hnext).mp hassigned
    obtain ⟨own, hown, rfl⟩ := hmember request hrequest
    have hne : entry ≠ own := by
      rintro rfl
      exact hid hzero
    have hsymm : Std.Symm fun left right : Nat × IoRequest =>
        left.2.id = 0 ∨ right.2.id = 0 → left.1 ≠ right.1 :=
      ⟨fun left right h hor => (h hor.symm).symm⟩
    refine hapart.forall hentry hown hne (.inl hzero) ?_
    rw [heq, numbered_own own hown hid]
  · intro hclear
    refine List.Pairwise.imp_of_mem ?_ (numbered_assigned_distinct hnext hlength)
    intro left right hleft hright hdistinct hor heq
    -- two assigned ids are distinct; otherwise one of the two was chosen
    have hchosen : ∀ own other : Nat × IoRequest, own ∈ numbered next requests →
        other ∈ numbered next requests → own.2.id ≠ 0 → other.2.id = 0 → own.1 ≠ other.1 := by
      intro own other hown hother hid hzero heq
      have hrequest : own.2 ∈ requests := by
        rw [← numbered_map_snd next requests]
        exact List.mem_map_of_mem hown
      refine hclear own.2 hrequest hid ((mem_assignedIds_iff hnext).mpr ⟨other, hother, hzero, ?_⟩)
      rw [← heq, numbered_own own hown hid]
    by_cases hleftId : left.2.id = 0
    · by_cases hrightId : right.2.id = 0
      · exact hdistinct hleftId hrightId heq
      · exact hchosen right left hright hleft hrightId hleftId heq.symm
    · exact hchosen left right hleft hright hleftId (hor.resolve_left hleftId) heq

/-! ## The queue is numbered -/

/-- The queued completions carry the ids of the outstanding requests, counted
    up to the runtime's counter. -/
def IoWorld.NumberedFrom (world : IoWorld) (outstanding : List IoRequest) (first : Nat) : Prop :=
  first < 2 ^ 64
    ∧ world.runtime.completions.map IoCompletion.id = (numbered first outstanding).map Prod.fst
    ∧ world.runtime.nextIoRequestId = (first + unnumbered outstanding) % 2 ^ 64

/-- Serving a batch numbers its requests. -/
theorem IoWorld.NumberedFrom.foldl_serve {requests : List IoRequest}
    (hknown : ∀ request ∈ requests, request.operation ≠ .unknown) {world : IoWorld}
    {outstanding : List IoRequest} {first : Nat} (h : world.NumberedFrom outstanding first) :
    (requests.foldl IoWorld.serve world).NumberedFrom (outstanding ++ requests) first := by
  induction requests generalizing world outstanding with
  | nil =>
      rw [List.append_nil]
      exact h
  | cons request rest ih =>
      obtain ⟨hfirst, hids, hnext⟩ := h
      obtain ⟨completion, hid, hqueue, hcounter⟩ :=
        world.serve_completions (hknown request List.mem_cons_self)
      -- the counter advances exactly for a request that came without an id
      have hserved : (world.serve request).NumberedFrom (outstanding ++ [request]) first := by
        refine ⟨hfirst, ?_, ?_⟩
        · rw [hqueue, List.map_append, hids, numbered_append hfirst, List.map_append, ← hnext,
            List.map_singleton, hid, HostedPlatformRuntime.requestId, numbered]
          split <;> rfl
        · rw [hcounter, HostedPlatformRuntime.nextAfter, hnext, unnumbered_append, unnumbered,
            unnumbered, List.countP_singleton]
          split
          · rename_i hzero
            rw [decide_eq_true hzero, if_pos rfl]
            omega
          · rename_i hzero
            rw [decide_eq_false hzero, if_neg Bool.false_ne_true, Nat.add_zero]
      have hrest := ih (fun other hother => hknown other (List.mem_cons_of_mem _ hother)) hserved
      rw [List.append_assoc] at hrest
      exact hrest

/-- Polling takes the first requests out. -/
theorem IoWorld.NumberedFrom.poll {world : IoWorld} {outstanding : List IoRequest} {first : Nat}
    (h : world.NumberedFrom outstanding first) (count : Nat) :
    ∃ first', { world with runtime :=
      { world.runtime with completions := world.runtime.completions.drop count } }.NumberedFrom
        (outstanding.drop count) first' := by
  obtain ⟨hfirst, hids, hnext⟩ := h
  refine ⟨(first + unnumbered (outstanding.take count)) % 2 ^ 64, Nat.mod_lt _ (by decide), ?_, ?_⟩
  · have hsplit := numbered_append hfirst (outstanding.take count) (outstanding.drop count)
    rw [List.take_append_drop] at hsplit
    have hlength : (numbered first (outstanding.take count)).length = min count outstanding.length := by
      rw [← List.length_map Prod.snd, numbered_map_snd, List.length_take]
    show (world.runtime.completions.drop count).map IoCompletion.id = _
    rw [List.map_drop, hids, hsplit, List.map_append]
    by_cases hcount : count ≤ outstanding.length
    · rw [List.drop_left' (by rw [List.length_map, hlength, Nat.min_eq_left hcount])]
    · have hgone : outstanding.drop count = [] := List.drop_eq_nil_of_le (by omega)
      rw [hgone, numbered, List.map_nil, List.append_nil]
      exact List.drop_eq_nil_of_le (by rw [List.length_map, hlength]; omega)
  · show world.runtime.nextIoRequestId = _
    have hcount := unnumbered_append (outstanding.take count) (outstanding.drop count)
    rw [List.take_append_drop] at hcount
    rw [hnext, hcount]
    omega

/-- What the queue shows of the outstanding requests. -/
theorem IoWorld.NumberedFrom.zip_eq {world : IoWorld} {outstanding : List IoRequest} {first : Nat}
    (h : world.NumberedFrom outstanding first) :
    (world.runtime.completions.zip outstanding).map (fun entry => (entry.1.id, entry.2))
      = numbered first outstanding := by
  have hzip : (world.runtime.completions.zip outstanding).map (fun entry => (entry.1.id, entry.2))
      = (world.runtime.completions.map IoCompletion.id).zip outstanding :=
    (List.zip_map_left ..).symm
  rw [hzip, h.2.1]
  nth_rewrite 2 [← numbered_map_snd first outstanding]
  exact (List.zip_of_prod rfl rfl).symm

theorem IoWorld.NumberedFrom.length_eq {world : IoWorld} {outstanding : List IoRequest}
    {first : Nat} (h : world.NumberedFrom outstanding first) :
    outstanding.length = world.runtime.completions.length := by
  rw [← List.length_map IoCompletion.id, h.2.1, List.length_map, ← List.length_map Prod.snd,
    numbered_map_snd]

/-- The ids are apart exactly when no chosen id is an assigned one. -/
theorem IoWorld.NumberedFrom.idsApart_iff {world : IoWorld} {outstanding : List IoRequest}
    {first : Nat} (h : world.NumberedFrom outstanding first)
    (hqueue : world.runtime.completions.length ≤ kHostedMaxOutstandingIo) :
    world.IdsApart outstanding
      ↔ ∀ request ∈ outstanding, request.id ≠ 0 → request.id ∉ assignedIds first outstanding := by
  have hlength : outstanding.length ≤ 2 ^ 64 := by
    rw [h.length_eq]
    exact Nat.le_trans hqueue (by decide)
  rw [← numbered_apart_iff h.1 hlength, ← h.zip_eq, List.pairwise_map]
  rfl

theorem IoWorld.NumberedFrom.mem_assignedIds_iff {world : IoWorld} {outstanding : List IoRequest}
    {first : Nat} (h : world.NumberedFrom outstanding first) {id : Nat} :
    id ∈ assignedIds first outstanding
      ↔ ∃ entry ∈ world.runtime.completions.zip outstanding, entry.2.id = 0 ∧ entry.1.id = id := by
  rw [MattSql.mem_assignedIds_iff h.1, ← h.zip_eq]
  simp only [List.mem_map, exists_exists_and_eq_and]

theorem assignedIds_append {first : Nat} (left right : List IoRequest) :
    assignedIds first (left ++ right)
      = assignedIds first left ++ assignedIds ((first + unnumbered left) % 2 ^ 64) right := by
  rw [assignedIds, unnumbered_append, List.range_add, List.map_append, List.map_map, assignedIds,
    assignedIds]
  refine congrArg _ (List.map_congr_left fun k _ => ?_)
  show (first + (unnumbered left + k)) % 2 ^ 64
    = ((first + unnumbered left) % 2 ^ 64 + k) % 2 ^ 64
  omega

/-- A batch that is accepted leaves the ids apart exactly when it keeps
    clear. -/
theorem IoWorld.NumberedFrom.served_apart_iff {world : IoWorld}
    {outstanding requests : List IoRequest} {first : Nat}
    (h : world.NumberedFrom outstanding first) (hapart : world.IdsApart outstanding)
    (hknown : ∀ request ∈ requests, request.operation ≠ .unknown)
    (hroom : world.runtime.completions.length + requests.length ≤ kHostedMaxOutstandingIo) :
    (requests.foldl IoWorld.serve world).IdsApart (outstanding ++ requests)
      ↔ world.KeepsClear outstanding requests := by
  have hserved := h.foldl_serve hknown
  have hold := (h.idsApart_iff (by omega)).mp hapart
  rw [hserved.idsApart_iff (by rw [IoWorld.length_foldl_serve hknown]; exact hroom),
    assignedIds_append, ← h.2.2]
  constructor
  · intro hclear
    refine ⟨fun request hrequest hid hmem => ?_, fun request hrequest hid entry hentry hzero heq => ?_⟩
    · exact hclear request hrequest hid (List.mem_append_right _ hmem)
    · refine hclear request (List.mem_append_right _ hrequest) hid (List.mem_append_left _ ?_)
      exact h.mem_assignedIds_iff.mpr ⟨entry, hentry, hzero, heq⟩
  · rintro ⟨hnew, hassigned⟩ request hrequest hid hmem
    rcases List.mem_append.mp hmem with hmem | hmem
    · rcases List.mem_append.mp hrequest with hrequest | hrequest
      · exact hold request hrequest hid hmem
      · obtain ⟨entry, hentry, hzero, heq⟩ := h.mem_assignedIds_iff.mp hmem
        exact hassigned request hrequest hid entry hentry hzero heq
    · exact hnew request hrequest hid hmem

/-! ## Whole runs -/

/-- The checks of `SubmitIoBatch` on a batch: it is neither empty nor too long,
    there is room for it in the queue, and its flags and operations are known. -/
def HostedPlatformRuntime.Takes (runtime : HostedPlatformRuntime) (requests : List IoRequest) :
    Prop :=
  requests ≠ [] ∧ requests.length ≤ kHostedMaxIoBatchSize
    ∧ runtime.completions.length + requests.length ≤ kHostedMaxOutstandingIo
    ∧ validateIoRequests requests = .ok ()

/-- The call is a submission that passes the checks. -/
def IoWorld.Accepts (world : IoWorld) (call : IoCall) (requests : List IoRequest) : Prop :=
  call = .submitIoBatch requests ∧ world.runtime.Takes requests

/-- The checks are those that decide the reply. -/
theorem IoWorld.accepts_iff {world : IoWorld}
    (hqueue : world.runtime.completions.length ≤ kHostedMaxOutstandingIo) {call : IoCall}
    {requests : List IoRequest} :
    world.Accepts call requests
      ↔ call = .submitIoBatch requests
        ∧ ∃ submission, (ioStep world call).1 = .submission (.ok submission) := by
  refine and_congr_right ?_
  rintro rfl
  -- the queue is within its limit, so the subtraction does not wrap
  have hslots : (kHostedMaxOutstandingIo + 2 ^ 64 - world.runtime.completions.length) % 2 ^ 64
      = kHostedMaxOutstandingIo - world.runtime.completions.length := by
    rw [kHostedMaxOutstandingIo] at hqueue ⊢
    omega
  rw [ioStep, HostedPlatformRuntime.submitIoBatch, hslots]
  constructor
  · rintro ⟨hne, hbatch, hroom, hvalid⟩
    obtain ⟨submission, hloop, -, -⟩ := HostedPlatformRuntime.executeIoRequests_eq requests
      (validateIoRequests_ok hvalid) world { submittedCount := requests.length } 0
    rw [if_neg hne, if_neg (Nat.not_lt.mpr hbatch), if_neg (by omega), hvalid]
    dsimp only
    rw [hloop]
    exact ⟨submission, rfl⟩
  · rintro ⟨submission, hok⟩
    by_cases hne : requests = []
    · rw [if_pos hne] at hok
      cases hok
    rw [if_neg hne] at hok
    by_cases hbatch : requests.length > kHostedMaxIoBatchSize
    · rw [if_pos hbatch] at hok
      cases hok
    rw [if_neg hbatch] at hok
    by_cases hroom : requests.length
        > kHostedMaxOutstandingIo - world.runtime.completions.length
    · rw [if_pos hroom] at hok
      cases hok
    rw [if_neg hroom] at hok
    cases hvalid : validateIoRequests requests with
    | error st =>
        rw [hvalid] at hok
        cases hok
    | ok done => exact ⟨hne, Nat.not_lt.mp hbatch, by omega, hvalid⟩

/-- One call keeps the queue numbered. -/
theorem ioStep_numbered {world : IoWorld} {outstanding : List IoRequest}
    (h : (∃ first, world.NumberedFrom outstanding first)
      ∧ world.runtime.completions.length ≤ kHostedMaxOutstandingIo) (call : IoCall) :
    (∃ first, (ioStep world call).2.NumberedFrom
        (trackOutstanding outstanding (call, (ioStep world call).1)) first)
      ∧ (ioStep world call).2.runtime.completions.length ≤ kHostedMaxOutstandingIo := by
  obtain ⟨⟨first, h⟩, hqueue⟩ := h
  cases call with
  | submitIoBatch requests =>
      rcases ioStep_submit_cases world requests hqueue with
        ⟨st, heq⟩ | ⟨submission, -, hroom, hknown, -, -, heq⟩
      · rw [heq]
        exact ⟨⟨first, h⟩, hqueue⟩
      · rw [heq]
        refine ⟨⟨first, h.foldl_serve hknown⟩, ?_⟩
        rw [IoWorld.length_foldl_serve hknown]
        exact hroom
  | pollIoCompletions size =>
      rcases ioStep_poll_cases world size with ⟨st, heq⟩ | heq
      · rw [heq]
        exact ⟨⟨first, h⟩, hqueue⟩
      · rw [heq]
        -- as many requests leave as completions were handed out
        have hdrop : outstanding.drop (world.runtime.completions.take size).length
            = outstanding.drop size := by
          rw [List.length_take, ← h.length_eq]
          by_cases hsize : size ≤ outstanding.length
          · rw [Nat.min_eq_left hsize]
          · rw [Nat.min_eq_right (by omega), List.drop_length, List.drop_eq_nil_of_le (by omega)]
        refine ⟨?_, ?_⟩
        · obtain ⟨first', hpolled⟩ := h.poll size
          refine ⟨first', ?_⟩
          show IoWorld.NumberedFrom _ (outstanding.drop (world.runtime.completions.take size).length) _
          rw [hdrop]
          exact hpolled
        · show (world.runtime.completions.drop size).length ≤ kHostedMaxOutstandingIo
          rw [List.length_drop]
          omega
  | callerWrites memory => exact ⟨⟨first, h⟩, hqueue⟩

/-- One call leaves the ids apart exactly when it is not a submission that
    fails to keep clear. -/
theorem ioStep_apart_iff {world : IoWorld} {outstanding : List IoRequest}
    (h : (∃ first, world.NumberedFrom outstanding first)
      ∧ world.runtime.completions.length ≤ kHostedMaxOutstandingIo)
    (hapart : world.IdsApart outstanding) (call : IoCall) :
    (ioStep world call).2.IdsApart (trackOutstanding outstanding (call, (ioStep world call).1))
      ↔ ∀ requests, world.Accepts call requests → world.KeepsClear outstanding requests := by
  obtain ⟨⟨first, h⟩, hqueue⟩ := h
  cases call with
  | submitIoBatch requests =>
      rcases ioStep_submit_cases world requests hqueue with
        ⟨st, heq⟩ | ⟨submission, -, hroom, hknown, -, -, heq⟩
      · rw [heq]
        refine ⟨fun _ other haccepts => ?_, fun _ => hapart⟩
        obtain ⟨-, submission, hok⟩ := (IoWorld.accepts_iff hqueue).mp haccepts
        rw [heq] at hok
        cases hok
      · have hserved := h.served_apart_iff hapart hknown hroom
        rw [heq]
        refine hserved.trans ⟨fun hclear other haccepts => ?_, fun hall => ?_⟩
        · obtain ⟨hcall, -⟩ := haccepts
          cases hcall
          exact hclear
        · exact hall requests ((IoWorld.accepts_iff hqueue).mpr ⟨rfl, submission, by rw [heq]⟩)
  | pollIoCompletions size =>
      refine ⟨fun _ other haccepts => ?_, fun _ => ?_⟩
      · cases haccepts.1
      rcases ioStep_poll_cases world size with ⟨st, heq⟩ | heq
      · rw [heq]
        exact hapart
      · rw [heq]
        -- the requests leave with their completions
        show List.Pairwise _ ((world.runtime.completions.drop size).zip
          (outstanding.drop (world.runtime.completions.take size).length))
        rw [List.length_take]
        by_cases hsize : size ≤ world.runtime.completions.length
        · rw [Nat.min_eq_left hsize, List.zip, ← List.drop_zipWith]
          exact hapart.drop
        · rw [List.drop_eq_nil_of_le (by omega), List.zip_nil_left]
          exact List.Pairwise.nil
  | callerWrites memory =>
      refine ⟨fun _ other haccepts => ?_, fun _ => hapart⟩
      cases haccepts.1

/-- **IDS OF OUTSTANDING REQUESTS**: at every point of a run the ids are apart
    exactly when every batch that the run accepts keeps clear of the counter. -/
theorem io_ids_apart_iff (device : Option MemoryBlockDevice) (memory : Memory)
    (calls : List IoCall) :
    (∀ n, (Run.final ioStep (.start device memory) (calls.take n)).IdsApart
        ((Run.trace ioStep (.start device memory) (calls.take n)).foldl trackOutstanding []))
      ↔ ∀ n call, calls[n]? = some call → ∀ requests,
        (Run.final ioStep (.start device memory) (calls.take n)).Accepts call requests →
        (Run.final ioStep (.start device memory) (calls.take n)).KeepsClear
          ((Run.trace ioStep (.start device memory) (calls.take n)).foldl trackOutstanding [])
          requests := by
  refine Run.forall_final_iff (I := fun (world : IoWorld) (outstanding : List IoRequest) =>
      (∃ first, world.NumberedFrom outstanding first)
        ∧ world.runtime.completions.length ≤ kHostedMaxOutstandingIo)
    (P := fun (world : IoWorld) (outstanding : List IoRequest) => world.IdsApart outstanding)
    (Q := fun (world : IoWorld) (outstanding : List IoRequest) call =>
      ∀ requests, world.Accepts call requests → world.KeepsClear outstanding requests)
    ?_ ?_ calls (.start device memory) [] ?_ ?_
  · intro world outstanding call h
    exact ioStep_numbered h call
  · intro world outstanding call h hapart
    exact ioStep_apart_iff h hapart call
  · exact ⟨⟨1, by decide, rfl, rfl⟩, Nat.zero_le _⟩
  · exact List.Pairwise.nil

/-- The ids that callers chose. -/
def chosenIds (calls : List IoCall) : List Nat :=
  calls.flatMap fun call =>
    match call with
    | .submitIoBatch requests => (requests.map IoRequest.id).filter (· ≠ 0)
    | _ => []

/-- A batch of a request without an id and one with the chosen id 1: both
    completions carry the id 1. -/
theorem assigned_id_meets_chosen_id :
    ¬ ∀ (device : Option MemoryBlockDevice) (memory : Memory) (calls : List IoCall),
      (chosenIds calls).Nodup → ∀ n,
        (Run.final ioStep (.start device memory) (calls.take n)).IdsApart
          ((Run.trace ioStep (.start device memory) (calls.take n)).foldl trackOutstanding []) := by
  intro h
  have hrun := h (some (.ofSize 4096 4096)) (fun _ => 0)
    [.submitIoBatch [{ operation := .flush }, { id := 1, operation := .flush }]] (by decide) 1
  have hpair := (List.pairwise_cons.mp hrun).1 _ List.mem_cons_self (.inl rfl)
  exact hpair rfl

end MattSql
