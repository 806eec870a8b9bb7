import ChromiumOS.Model.UpdateEngine.LibcurlHttpFetcher
import ChromiumOS.ToMathlib.PartialRun

/-! # Downloads over connections that end early

While a transfer is in progress, the offset asked for and the bytes handed over since add up to the
bytes that the delegate has, and the size is known once there is one of them. So an end of the
connection is told from the end of the resource, except before the first byte.
-/

namespace ChromiumOS.UpdateEngine.LibcurlHttpFetcher

open PartialRun

variable (resource : String → List UInt8) (contentLength : ℕ → ℤ)

/-- The delegate has a prefix of the resource, and had all of it whenever it was told so. -/
structure Faithful (fetcher : LibcurlHttpFetcher) : Prop where
  received : fetcher.received <+: resource fetcher.url_
  complete : ∀ completion ∈ fetcher.completions, completion.2 = resource completion.1

/-- The connection ends, and no byte of the transfer has arrived. -/
def EndsUnstarted (fetcher : LibcurlHttpFetcher) (operation : FetcherOperation) : Prop :=
  operation = .CurlPerformOnce [] false ∧ fetcher.transfer_in_progress_ = true ∧
    fetcher.bytes_downloaded_ = 0

/-- How the counters of a transfer in progress are related. -/
structure Downloading (fetcher : LibcurlHttpFetcher) : Prop where
  handle : ∃ handle, fetcher.curl_handle_ = some handle ∧ fetcher.resume_offset_ = handle.resume_from ∧
    handle.resume_from + handle.received = fetcher.received.length
  counted : fetcher.bytes_downloaded_ = fetcher.received.length
  received : fetcher.received <+: resource fetcher.url_
  sized : fetcher.transfer_size_ =
    if fetcher.received = [] then -1 else ((resource fetcher.url_).length : ℤ)

/-- The invariant of a fetcher. -/
structure Consistent (fetcher : LibcurlHttpFetcher) : Prop extends Faithful resource fetcher where
  downloading : fetcher.transfer_in_progress_ = true → Downloading resource fetcher

/-- What is handed over changes nothing but the counters and what the delegate has. -/
structure Advances (before after : LibcurlHttpFetcher) : Prop where
  downloading : Downloading resource after
  url_ : after.url_ = before.url_
  transfer_in_progress_ : after.transfer_in_progress_ = before.transfer_in_progress_
  completions : after.completions = before.completions

variable {resource contentLength} {fetcher next : LibcurlHttpFetcher}

theorem Downloading.prefix_append (downloading : Downloading resource fetcher) (chunk : ℕ) :
    fetcher.received ++ ((resource fetcher.url_).drop fetcher.received.length).take chunk <+:
      resource fetcher.url_ := by
  have same := List.prefix_iff_eq_append.mp downloading.received
  conv_rhs => rw [← same]
  exact (List.prefix_append_right_inj _).mpr (List.take_prefix _ _)

/-- A chunk is the next part of the resource. -/
theorem handOver_advances
    (truthful : ∀ length ≤ (resource fetcher.url_).length, 0 < length → contentLength length = length)
    (present : resource fetcher.url_ ≠ []) (downloading : Downloading resource fetcher) (chunk : ℕ+) :
    ∃ next, fetcher.handOver resource contentLength chunk = some next ∧
      Advances resource fetcher next ∧ next.received ≠ [] := by
  obtain ⟨handle, at_, offset, position⟩ := downloading.handle
  have rest : (fetcher.body resource handle).drop handle.received =
      (resource fetcher.url_).drop fetcher.received.length := by
    rw [body, List.drop_drop, position]
  have split := downloading.prefix_append chunk
  simp only [handOver, at_, Option.bind_eq_bind, Option.bind_some, rest]
  split
  · next nothing =>
    refine ⟨fetcher, rfl, ⟨downloading, rfl, rfl, rfl⟩, ?_⟩
    intro none
    rw [none, List.length_nil, List.drop_zero, List.take_eq_nil_iff] at nothing
    exact nothing.elim (fun zero => chunk.ne_zero zero) present
  · next something =>
    have more : fetcher.received.length < (resource fetcher.url_).length := by
      by_contra all
      rw [List.drop_eq_nil_of_le (not_lt.mp all)] at something
      exact something (List.take_nil)
    have announced : contentLength (fetcher.body resource handle).length =
        (resource fetcher.url_).length - handle.resume_from := by
      rw [truthful _ (by simp [body]) (by rw [body, List.length_drop]; omega), body, List.length_drop]
      omega
    refine ⟨_, rfl, ⟨⟨⟨_, rfl, offset, ?_⟩, ?_, split, ?_⟩, rfl, rfl, rfl⟩, ?_⟩
    · simp only [LibcurlWrite, List.length_append]
      omega
    · simp only [LibcurlWrite, List.length_append, downloading.counted]
      omega
    · have positive : (0 : ℤ) < (resource fetcher.url_).length - handle.resume_from := by omega
      simp only [LibcurlWrite, announced, List.append_eq_nil_iff, something, and_false, if_false,
        gt_iff_lt, positive, if_true, offset]
      omega
    · exact fun none => something (List.append_eq_nil_iff.mp none).2

theorem handOver_chunks_advance
    (truthful : ∀ length ≤ (resource fetcher.url_).length, 0 < length → contentLength length = length)
    (present : resource fetcher.url_ ≠ []) (downloading : Downloading resource fetcher)
    (chunks : List ℕ+) :
    ∃ next, chunks.foldlM (handOver resource contentLength) fetcher = some next ∧
      Advances resource fetcher next ∧ (next.received = [] → chunks = [] ∧ fetcher.received = []) := by
  induction chunks generalizing fetcher with
  | nil => exact ⟨fetcher, rfl, ⟨downloading, rfl, rfl, rfl⟩, fun none => ⟨rfl, none⟩⟩
  | cons chunk rest ih =>
    obtain ⟨middle, first, advanced, started⟩ := handOver_advances truthful present downloading chunk
    rw [← advanced.url_] at truthful present
    obtain ⟨next, later, again, unstarted⟩ := ih truthful present advanced.downloading
    refine ⟨next, ?_, ⟨again.downloading, ?_, ?_, ?_⟩, ?_⟩
    · rw [List.foldlM_cons, first]
      exact later
    · rw [again.url_, advanced.url_]
    · rw [again.transfer_in_progress_, advanced.transfer_in_progress_]
    · rw [again.completions, advanced.completions]
    · exact fun none => absurd (unstarted none).2 started

theorem ResumeTransfer_consistent (faithful : Faithful resource fetcher)
    (counted : fetcher.bytes_downloaded_ = fetcher.received.length)
    (sized : fetcher.transfer_size_ =
      if fetcher.received = [] then -1 else ((resource fetcher.url_).length : ℤ))
    (unset : fetcher.received = [] → fetcher.resume_offset_ = 0)
    (resumed : fetcher.ResumeTransfer fetcher.url_ = some next) : Consistent resource next := by
  rw [ResumeTransfer] at resumed
  split at resumed
  · cases resumed
  · dsimp only at resumed
    split at resumed
    · next some =>
      cases resumed
      refine ⟨⟨faithful.received, faithful.complete⟩, fun _ => ⟨⟨_, rfl, ?_, ?_⟩, counted, faithful.received, sized⟩⟩
      · exact (Int.toNat_of_nonneg some.le).symm
      · simp [counted]
    · next none =>
      cases resumed
      have empty : fetcher.received = [] := List.length_eq_zero_iff.mp (by omega)
      refine ⟨⟨faithful.received, faithful.complete⟩, fun _ => ⟨⟨_, rfl, ?_, ?_⟩, counted, faithful.received, sized⟩⟩
      · exact unset empty
      · simp [empty]

theorem BeginTransfer_consistent (faithful : Faithful resource fetcher) {url : String}
    (begun : fetcher.BeginTransfer url = some next) : Consistent resource next := by
  have fresh : Faithful resource
      { fetcher with
        url_ := url, transfer_size_ := -1, bytes_downloaded_ := 0, resume_offset_ := 0, received := [] } :=
    ⟨List.nil_prefix, faithful.complete⟩
  exact ResumeTransfer_consistent fresh rfl rfl (fun _ => rfl) begun

theorem CleanUp_consistent (faithful : Faithful resource fetcher) :
    Consistent resource fetcher.CleanUp :=
  ⟨⟨faithful.received, faithful.complete⟩, fun running => absurd running Bool.false_ne_true⟩

theorem TransferComplete_consistent (faithful : Faithful resource fetcher)
    (idle : fetcher.transfer_in_progress_ = false)
    (whole : fetcher.received = resource fetcher.url_) : Consistent resource fetcher.TransferComplete := by
  refine ⟨⟨faithful.received, ?_⟩, fun running => ?_⟩
  · intro completion member
    rcases List.mem_append.mp member with earlier | last
    · exact faithful.complete completion earlier
    · rw [List.mem_singleton.mp last]
      exact whole
  · rw [TransferComplete, idle] at running
    cases running

/-- The delegate has everything if it has a byte and as many as were announced. -/
theorem Downloading.whole (downloading : Downloading resource fetcher) (started : fetcher.received ≠ [])
    (all : ¬ (fetcher.transfer_size_ ≥ 0 ∧ fetcher.bytes_downloaded_ < fetcher.transfer_size_)) :
    fetcher.received = resource fetcher.url_ := by
  apply downloading.received.eq_of_length_le
  rw [downloading.sized, if_neg started, downloading.counted] at all
  omega

section Server

variable (truthful : ∀ url, ∀ length ≤ (resource url).length, 0 < length → contentLength length = length)
variable (present : ∀ url, resource url ≠ [])
include truthful present

theorem CurlPerformOnce_consistent (consistent : Consistent resource fetcher) {chunks : List ℕ+}
    {running : Bool} (started : ¬ fetcher.EndsUnstarted (.CurlPerformOnce chunks running))
    (performed : fetcher.CurlPerformOnce resource contentLength chunks running = some next) :
    Consistent resource next := by
  rw [CurlPerformOnce] at performed
  cases active : fetcher.transfer_in_progress_ with
  | false => simp [active] at performed
  | true =>
    have downloading := consistent.downloading active
    obtain ⟨after, handed, advanced, unstarted⟩ :=
      handOver_chunks_advance (truthful _) (present _) downloading chunks
    have faithful : Faithful resource after :=
      ⟨advanced.downloading.received, by rw [advanced.completions]; exact consistent.complete⟩
    simp only [active, Bool.not_true, Bool.false_eq_true, if_false, handed, Option.bind_eq_bind,
      Option.bind_some] at performed
    cases running with
    | true =>
      cases performed
      exact ⟨faithful, fun _ => advanced.downloading⟩
    | false =>
      have cleaned : Faithful resource after.CleanUp := (CleanUp_consistent faithful).toFaithful
      have some : after.received ≠ [] := by
        intro none
        obtain ⟨rfl, empty⟩ := unstarted none
        exact started ⟨rfl, active, by rw [downloading.counted, empty]; rfl⟩
      simp only [Bool.false_eq_true, if_false] at performed
      split at performed
      · exact ResumeTransfer_consistent cleaned advanced.downloading.counted advanced.downloading.sized
          (fun none => absurd none some) performed
      · next all =>
        cases performed
        exact TransferComplete_consistent cleaned rfl (advanced.downloading.whole some all)

theorem step_consistent (consistent : Consistent resource fetcher) {operation : FetcherOperation}
    (started : ¬ fetcher.EndsUnstarted operation)
    (taken : fetcher.step resource contentLength operation = some next) : Consistent resource next := by
  have checked (passed : fetcher.checkActive = some next) : Consistent resource next := by
    rw [checkActive] at passed
    split at passed
    · cases passed
      exact consistent
    · cases passed
  cases operation with
  | BeginTransfer url => exact BeginTransfer_consistent consistent.toFaithful taken
  | CurlPerformOnce chunks running =>
    exact CurlPerformOnce_consistent truthful present consistent started taken
  | Pause => exact checked taken
  | Unpause => exact checked taken
  | TerminateTransfer =>
    cases taken
    exact CleanUp_consistent consistent.toFaithful

omit truthful in
/-- An end before the first byte is taken for the end of the resource. -/
theorem step_of_endsUnstarted (consistent : Consistent resource fetcher) {operation : FetcherOperation}
    (unstarted : fetcher.EndsUnstarted operation) :
    ∃ next, fetcher.step resource contentLength operation = some next ∧ ¬ Faithful resource next := by
  obtain ⟨rfl, active, none⟩ := unstarted
  have downloading := consistent.downloading active
  have empty : fetcher.received = [] := by
    rw [downloading.counted] at none
    exact List.length_eq_zero_iff.mp (by omega)
  have unknown : fetcher.transfer_size_ = -1 := by rw [downloading.sized, if_pos empty]
  refine ⟨fetcher.CleanUp.TransferComplete, ?_, ?_⟩
  · simp [step, CurlPerformOnce, active, CleanUp, unknown]
  · intro faithful
    have whole := faithful.complete (fetcher.url_, fetcher.received)
      (List.mem_append_right _ (List.mem_singleton_self _))
    exact present fetcher.url_ (whole.symm.trans empty)

/-- A fetcher is faithful along a run exactly when no connection of it ends before the first byte of
its transfer. -/
theorem fetcher_faithful_iff (size downloaded offset : ℤ) (operations : List FetcherOperation) :
    Always (step resource contentLength) (Faithful resource) (new size downloaded offset) operations ↔
      Throughout (step resource contentLength) (fun fetcher operation => ¬ fetcher.EndsUnstarted operation)
        (new size downloaded offset) operations := by
  refine always_iff_throughout (Consistent resource) (fun fetcher => Consistent.toFaithful) ?_ ?_ ?_ operations
  · intro fetcher operation next consistent started taken
    exact step_consistent truthful present consistent started taken
  · intro fetcher operation consistent unstarted
    exact step_of_endsUnstarted present consistent (not_not.mp unstarted)
  · refine ⟨⟨List.nil_prefix, ?_⟩, fun running => absurd running Bool.false_ne_true⟩
    intro completion member
    cases member

end Server

/-- A server with one resource of three bytes. -/
def threeBytes (_ : String) : List UInt8 := [1, 2, 3]

/-- A download over three connections: the first ends after two bytes, the second before any. -/
theorem fetcher_faithful_twoDrops :
    Always (step threeBytes Int.ofNat) (Faithful threeBytes) (new 0 0 0)
        [.BeginTransfer "u", .CurlPerformOnce [2] false, .CurlPerformOnce [] false,
          .CurlPerformOnce [4] false] ∧
      (run (step threeBytes Int.ofNat) (new 0 0 0)
        [.BeginTransfer "u", .CurlPerformOnce [2] false, .CurlPerformOnce [] false,
          .CurlPerformOnce [4] false]).map (fun last => last.completions) = some [("u", [1, 2, 3])] := by
  refine ⟨(fetcher_faithful_iff (fun _ _ _ _ => rfl) (fun _ => List.cons_ne_nil _ _) 0 0 0 _).mpr ?_, rfl⟩
  refine throughout_cons.mpr ⟨by simp [EndsUnstarted], ?_⟩
  rintro _ ⟨⟩
  refine throughout_cons.mpr ⟨by simp [EndsUnstarted], ?_⟩
  rintro _ ⟨⟩
  refine throughout_cons.mpr ⟨fun unstarted => absurd unstarted.2.2 (by decide), ?_⟩
  rintro _ ⟨⟩
  exact throughout_cons.mpr ⟨by simp [EndsUnstarted], fun _ _ => throughout_nil⟩

/-- A connection that ends before the first byte completes the transfer with nothing received. -/
theorem fetcher_completes_unstarted :
    ¬ Always (step threeBytes Int.ofNat) (Faithful threeBytes) (new 0 0 0)
        [.BeginTransfer "u", .CurlPerformOnce [] false] ∧
      (run (step threeBytes Int.ofNat) (new 0 0 0) [.BeginTransfer "u", .CurlPerformOnce [] false]).map
        (fun last => last.completions) = some [("u", [])] := by
  refine ⟨?_, rfl⟩
  intro always
  have last := always _ (List.prefix_refl _) _ rfl
  exact absurd (last.complete ("u", []) (List.mem_singleton_self _)) (by decide)

end ChromiumOS.UpdateEngine.LibcurlHttpFetcher
