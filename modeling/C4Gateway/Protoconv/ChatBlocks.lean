import C4Gateway.Protoconv.ChatStream

/-! The order of the content blocks that a Messages client gets of a Chat stream. -/

namespace C4Gateway.Protoconv

open Monitor List
open Option (bind_some)
open MessPhase (next)

namespace ChatMapper

/-- No header is waiting. -/
def AllStarted (m : ChatMapper) : Prop := ∀ index ∈ m.blockOrder, index ∈ m.blockStarted

/-- The call completes the header of its block. -/
def Starts (m : ChatMapper) (call : Obj) : Prop :=
  let index := (m.chatToolBlock (intOr0 call "index")).2
  index ∉ m.blockStarted ∧ mergeChatFragment (m.fcIDs index) (callID call) ≠ "" ∧
    mergeChatFragment (m.fcNames index) (callName call) ≠ "" ∧ callArguments call ≠ ""

/-- A block starts only after every block before it. -/
def PieceInOrder (m : ChatMapper) : ChatPiece → Prop
  | .reasoning _ => m.chatReasoning.isSome ∨ m.AllStarted
  | .content _ => m.chatText.isSome ∨ m.AllStarted
  | .toolCall call => m.Starts call → ∀ index ∈ m.blockOrder,
      index < (m.chatToolBlock (intOr0 call "index")).2 → index ∈ m.blockStarted

/-- The blocks are numbered as they come, and those that are started come first. -/
structure Numbered (m : ChatMapper) : Prop where
  order : m.blockOrder = (List.range m.blockOrder.length).map Int.ofNat
  next : m.nextChatBlock = m.blockOrder.length
  blocks : ∀ index, index ∈ m.blockStarted ↔ 0 ≤ index ∧ index < m.blockStarted.length
  bounded : m.blockStarted.length ≤ m.blockOrder.length
  text : ∀ index ∈ m.chatText, index ∈ m.blockStarted
  reasoning : ∀ index ∈ m.chatReasoning, index ∈ m.blockStarted
  tools : ∀ p ∈ m.chatToolIndexes, p.2 ∈ m.blockOrder
  stopped : m.blockStopped = []

variable {m : ChatMapper} {phase : MessPhase}

theorem Numbered.mem_order (h : m.Numbered) (index : Int) :
    index ∈ m.blockOrder ↔ 0 ≤ index ∧ index < m.blockOrder.length := by
  rw [h.order]
  simp only [mem_map, mem_range, length_map, length_range]
  constructor
  · rintro ⟨k, hk, rfl⟩
    simp only [Int.ofNat_eq_natCast]
    omega
  · rintro ⟨hge, hlt⟩
    exact ⟨index.toNat, by omega, by simp only [Int.ofNat_eq_natCast]; omega⟩

theorem Numbered.allStarted_iff (h : m.Numbered) :
    m.AllStarted ↔ m.nextChatBlock = m.blockStarted.length := by
  have hbounded := h.bounded
  rw [h.next]
  constructor
  · intro hall
    by_contra hne
    have hlast := hall (m.blockOrder.length - 1) ((h.mem_order _).mpr (by omega))
    have := (h.blocks _).mp hlast
    omega
  · intro heq index hin
    have := (h.mem_order index).mp hin
    exact (h.blocks index).mpr (by omega)

theorem order_concat {l : List Int} {k : Int} (h : l = (List.range l.length).map Int.ofNat)
    (hk : k = l.length) : l ++ [k] = (List.range (l ++ [k]).length).map Int.ofNat := by
  subst hk
  rw [length_append, length_singleton, range_succ, map_append, ← h]
  rfl

/-- A new block that is started at once, after all the others. -/
theorem Numbered.allocate_start (h : m.Numbered) (hall : m.AllStarted) {text reasoning : Option Int}
    (htext : ∀ index ∈ text, index ∈ m.blockStarted ∨ index = m.nextChatBlock)
    (hreasoning : ∀ index ∈ reasoning, index ∈ m.blockStarted ∨ index = m.nextChatBlock) :
    Numbered
      { m.allocate.1 with
        blockStarted := m.nextChatBlock :: m.blockStarted
        chatText := text
        chatReasoning := reasoning } := by
  have hlast := h.allStarted_iff.mp hall
  have hnext := h.next
  have hmem : ∀ {index}, index ∈ m.blockStarted ∨ index = m.nextChatBlock →
      index ∈ m.nextChatBlock :: m.blockStarted := by
    rintro index (hin | rfl)
    · exact .tail _ hin
    · exact .head _
  refine ⟨order_concat h.order h.next, ?_, fun index => ?_, ?_,
    fun index hin => hmem (htext index hin),
    fun index hin => hmem (hreasoning index hin), fun p hp => ?_, h.stopped⟩
  · simp [allocate, hnext]
  · have := h.blocks index
    simp only [mem_cons, this, length_cons]
    omega
  · simpa [allocate] using h.bounded
  · exact mem_append_left _ (h.tools p hp)

/-- The index of a call is one that was given out, or the next one. -/
theorem Numbered.chatToolBlock (h : m.Numbered) (chatIndex : Int) :
    (m.chatToolBlock chatIndex).1.Numbered ∧
      (m.chatToolBlock chatIndex).1.blockStarted = m.blockStarted ∧
      (m.chatToolBlock chatIndex).2 ∈ (m.chatToolBlock chatIndex).1.blockOrder ∧
      (0 ≤ (m.chatToolBlock chatIndex).2 ∧
        (m.chatToolBlock chatIndex).2 ≤ m.blockOrder.length) := by
  unfold ChatMapper.chatToolBlock
  split
  next index hindex =>
    have hin : index ∈ m.blockOrder := by
      obtain ⟨l, l', heq, -⟩ := lookup_eq_some_iff.mp hindex
      exact h.tools (chatIndex, index) (by simp [heq])
    have := (h.mem_order index).mp hin
    exact ⟨h, rfl, hin, by omega⟩
  · have hnext := h.next
    refine ⟨⟨order_concat h.order h.next, by simp [allocate, hnext], h.blocks, ?_, h.text,
      h.reasoning, ?_, h.stopped⟩, rfl, by simp [allocate], by simp [allocate, hnext]⟩
    · have := h.bounded
      simp only [allocate, length_append]
      omega
    · rintro p hp
      rcases mem_cons.mp hp with rfl | hp
      · simp [allocate]
      · exact mem_append_left _ (h.tools p hp)

/-- The client has seen `message_start` and the blocks that are started. -/
structure Streams (done : Bool) (m : ChatMapper) (phase : MessPhase) : Prop extends m.Numbered where
  phase_eq : phase = .streaming m.blockStarted.length []
  started : m.started = true
  flag : m.done = done

abbrev Tells (done : Bool) (phase : MessPhase) (r : ChatMapper × List MessEvent)
    (condition : Prop) : Prop :=
  Monitor.Tells next (Streams done) phase r condition

variable {done : Bool} {index : Int}

theorem isOpen_of_mem (h : m.Numbered) (hin : index ∈ m.blockStarted) :
    isOpen m.blockStarted.length [] index = true := by
  simpa [isOpen] using (h.blocks index).mp hin

section
variable (h : Streams done m phase)
include h

/-- A header and what follows it in the same block. -/
theorem run_start (index : Int) (block : ContentBlock) (deltas : List BlockDelta) :
    run next phase
        (.blockStart index block :: deltas.map (.blockDelta index)) =
      if index = m.blockStarted.length then some (.streaming (m.blockStarted.length + 1) [])
      else none := by
  simp only [h.phase_eq, run_cons, MessPhase.next]
  split
  next hnext =>
    induction deltas with
    | nil => rfl
    | cons delta deltas ih =>
      have hopen : isOpen (m.blockStarted.length + 1) [] index = true := by
        simp only [isOpen, not_mem_nil, not_false_eq_true, and_true, decide_eq_true_eq]
        omega
      simpa [MessPhase.next, hopen] using ih
  · rfl

theorem run_delta (hin : index ∈ m.blockStarted) (deltas : List BlockDelta) :
    run next phase (deltas.map (.blockDelta index)) = some phase := by
  induction deltas with
  | nil => rfl
  | cons delta deltas ih =>
    rw [h.phase_eq] at ih ⊢
    simpa [MessPhase.next, isOpen_of_mem h.toNumbered hin] using ih

/-- A text or reasoning block: written to if it is there, else started as a new one. -/
theorem tells_fresh {m' : ChatMapper} (block : ContentBlock)
    (delta : BlockDelta) (hstarted : m'.blockStarted = m.blockStarted)
    (hsame : m'.started = m.started ∧ m'.done = m.done)
    (hnew : m.AllStarted →
      Numbered { m' with blockStarted := m.nextChatBlock :: m.blockStarted }) :
    Tells done phase (m'.write m.nextChatBlock block delta) m.AllStarted := by
  have hnot : m.nextChatBlock ∉ m'.blockStarted := by
    have := h.bounded
    have := h.next
    rw [hstarted, h.blocks]
    omega
  have hwrite : m'.write m.nextChatBlock block delta =
      ({ m' with blockStarted := m.nextChatBlock :: m.blockStarted },
        .blockStart m.nextChatBlock block :: [delta].map (.blockDelta m.nextChatBlock)) := by
    rw [write, if_neg hnot, hstarted]
    rfl
  unfold Tells Monitor.Tells
  rw [hwrite, run_start h, h.allStarted_iff]
  exact ⟨fun hnext => ⟨_, if_pos hnext, hnew (h.allStarted_iff.mpr hnext), by simp,
    hsame.1.trans h.started, hsame.2.trans h.flag⟩, fun hnext => if_neg hnext⟩

theorem tells_known (hin : index ∈ m.blockStarted) (block : ContentBlock) (delta : BlockDelta) :
    Tells done phase (m.write index block delta) True := by
  simp only [write, hin]
  exact ⟨fun _ => ⟨phase, run_delta h hin [delta], h⟩, fun hnot => absurd trivial hnot⟩

theorem tells_content (text : String) :
    Tells done phase (m.piece (.content text)) (m.PieceInOrder (.content text)) := by
  simp only [piece, PieceInOrder, chatTextBlock]
  cases htext : m.chatText with
  | some index => simpa using tells_known h (h.text index htext) _ _
  | none =>
    simp only [Option.isSome_none, Bool.false_eq_true, false_or]
    exact tells_fresh h .text (.text text) rfl ⟨rfl, rfl⟩ fun hall =>
      h.allocate_start hall (by rintro _ ⟨⟩; exact .inr rfl)
        fun index hin => .inl (h.reasoning index hin)

theorem tells_reasoning (text : String) :
    Tells done phase (m.piece (.reasoning text)) (m.PieceInOrder (.reasoning text)) := by
  simp only [piece, PieceInOrder, chatReasoningBlock]
  cases hreasoning : m.chatReasoning with
  | some index => simpa using tells_known h (h.reasoning index hreasoning) _ _
  | none =>
    simp only [Option.isSome_none, Bool.false_eq_true, false_or]
    exact tells_fresh h .thinking (.thinking text) rfl ⟨rfl, rfl⟩ fun hall =>
      h.allocate_start hall (fun index hin => .inl (h.text index hin))
        (by rintro _ ⟨⟩; exact .inr rfl)

/-- The header of a tool block that has its index. -/
theorem tells_startChatToolBlock (horder : index ∈ m.blockOrder) (hin : index ∉ m.blockStarted) :
    Tells done phase (m.startChatToolBlock index) (index = m.blockStarted.length) := by
  have hlt := (h.mem_order index).mp horder
  have hevents : ∃ deltas block, (m.startChatToolBlock index).2 =
      .blockStart index block :: List.map (.blockDelta index) deltas := by
    simp only [startChatToolBlock, hin]
    by_cases hargs : m.argsByIndex index = ""
    · exact ⟨[], _, by rw [if_pos hargs]; rfl⟩
    · exact ⟨[_], _, by rw [if_neg hargs]; rfl⟩
  obtain ⟨deltas, block, hevents⟩ := hevents
  unfold Tells Monitor.Tells
  rw [hevents, run_start h]
  refine ⟨fun hnext => ⟨_, if_pos hnext, ?_⟩, fun hnext => if_neg hnext⟩
  simp only [startChatToolBlock, hin, if_false]
  refine ⟨⟨h.order, h.next, fun i => ?_, ?_, fun i hi => .tail _ (h.text i hi),
    fun i hi => .tail _ (h.reasoning i hi), h.tools, h.stopped⟩, rfl, h.started, h.flag⟩
  · have := h.blocks i
    simp only [mem_cons, this, length_cons]
    omega
  · simp only [length_cons]
    omega

end

/-- All blocks before one that is not started are, exactly if it is the next one to start. -/
theorem Numbered.before_iff (h : m.Numbered) (hin : index ∉ m.blockStarted)
    (hrange : 0 ≤ index ∧ index ≤ m.blockOrder.length) :
    (∀ i ∈ m.blockOrder, i < index → i ∈ m.blockStarted) ↔ index = m.blockStarted.length := by
  have hge : (m.blockStarted.length : Int) ≤ index := by
    by_contra hlt
    exact hin ((h.blocks index).mpr (by omega))
  constructor
  · intro hbefore
    by_contra hne
    have hmem := (h.mem_order m.blockStarted.length).mpr (by omega)
    have := (h.blocks _).mp (hbefore _ hmem (by omega))
    omega
  · intro heq i hi hlt
    have := (h.mem_order i).mp hi
    exact (h.blocks i).mpr (by omega)

theorem tells_toolCall (h : Streams done m phase) (call : Obj) :
    Tells done phase (m.piece (.toolCall call)) (m.PieceInOrder (.toolCall call)) := by
  obtain ⟨hnum, hstarted, horder, hrange⟩ := h.chatToolBlock (intOr0 call "index")
  have hflags : (m.chatToolBlock (intOr0 call "index")).1.started = m.started ∧
      (m.chatToolBlock (intOr0 call "index")).1.done = m.done ∧
      (m.chatToolBlock (intOr0 call "index")).1.fcIDs = m.fcIDs ∧
      (m.chatToolBlock (intOr0 call "index")).1.fcNames = m.fcNames := by
    unfold ChatMapper.chatToolBlock
    split <;> exact ⟨rfl, rfl, rfl, rfl⟩
  simp only [piece, toolCall, PieceInOrder, Starts]
  generalize m.chatToolBlock (intOr0 call "index") = r at *
  obtain ⟨m₁, index⟩ := r
  obtain ⟨hstart, hdone, hids, hnames⟩ := hflags
  dsimp only at *
  -- Noting the fragments of the call changes only texts.
  have hnoted : ∀ ids names args, Streams done
      { m₁ with fcIDs := ids, fcNames := names, argsByIndex := args } phase := fun ids names args =>
    ⟨{ hnum with }, by rw [h.phase_eq, hstarted], hstart.trans h.started, hdone.trans h.flag⟩
  by_cases hin : index ∈ m.blockStarted
  · have hin' : index ∈ (m₁.noteCall index call).blockStarted := by rwa [← hstarted] at hin
    have hevents : ∃ deltas, (if callArguments call = "" then []
        else [.blockDelta index (.inputJson (callArguments call))]) =
          List.map (MessEvent.blockDelta index) deltas := by
      split
      · exact ⟨[], rfl⟩
      · exact ⟨[_], rfl⟩
    obtain ⟨deltas, hevents⟩ := hevents
    rw [if_pos hin', hevents]
    refine ⟨fun _ => ⟨phase, run_delta (hnoted _ _ _) hin' deltas, hnoted _ _ _⟩, fun hnot => ?_⟩
    exact absurd (fun hstarts => absurd hin hstarts.1) hnot
  · have hin' : index ∉ (m₁.noteCall index call).blockStarted := by rwa [← hstarted] at hin
    rw [if_neg hin']
    simp only [noteCall, Function.update_self, hids, hnames, hin, not_false_eq_true, true_and]
    split
    next hready =>
      rw [imp_iff_right hready, h.before_iff hin hrange, ← hstarted]
      exact tells_startChatToolBlock (hnoted _ _ _) horder hin'
    next hwait =>
      simp only [hwait, false_imp_iff]
      exact tells_nil (hnoted _ _ _)

theorem tells_piece (h : Streams done m phase) (p : ChatPiece) :
    Tells done phase (m.piece p) (m.PieceInOrder p) := by
  cases p with
  | reasoning text => exact tells_reasoning h text
  | content text => exact tells_content h text
  | toolCall call => exact tells_toolCall h call

/-! ### The end of the stream -/

def indexes (j len : Nat) : List Int := (List.range' j len).map Int.ofNat

theorem indexes_succ (j len : Nat) : indexes j (len + 1) = (j : Int) :: indexes (j + 1) len := by
  simp [indexes, range'_succ]

/-- The headers that are waiting come out in the order of their indexes. -/
theorem run_startAll {j len : Nat} (h : Streams done m phase) (hj : j ≤ m.blockStarted.length)
    (hlen : m.blockOrder.length = j + len) :
    ∃ phase', run next phase (m.startAll (indexes j len)).2 = some phase' ∧
      Streams done (m.startAll (indexes j len)).1 phase' ∧
      (m.startAll (indexes j len)).1.AllStarted ∧
      (m.startAll (indexes j len)).1.blockOrder = m.blockOrder := by
  induction len generalizing j m phase with
  | zero =>
    refine ⟨phase, rfl, h, h.allStarted_iff.mpr ?_, rfl⟩
    have := h.bounded
    rw [h.next]
    omega
  | succ len ih =>
    rw [indexes_succ, startAll]
    by_cases hin : (j : Int) ∈ m.blockStarted
    · have := (h.blocks j).mp hin
      simp only [hin, not_true_eq_false, false_and, if_false]
      exact ih h (by omega) (by omega)
    · have hnext : (j : Int) = m.blockStarted.length := by
        have hnot := (h.blocks j).not.mp hin
        omega
      have htext : m.chatText ≠ some (j : Int) := fun heq => hin (h.text j heq)
      obtain ⟨phase₁, hrun, hstreams⟩ := (tells_startChatToolBlock h
        ((h.mem_order j).mpr (by omega)) hin).1 hnext
      have hmore : (m.startChatToolBlock j).1.blockStarted.length = m.blockStarted.length + 1 ∧
          (m.startChatToolBlock j).1.blockOrder = m.blockOrder := by
        simp [startChatToolBlock, hin]
      obtain ⟨phase', hrun', hrest⟩ := ih hstreams (j := j + 1) (by omega)
        (by rw [hmore.2]; omega)
      simp only [hin, not_false_eq_true, htext, ne_eq, and_self, if_true, run_append, hrun]
      refine ⟨phase', hrun', ?_⟩
      rw [hmore.2] at hrest
      exact hrest

/-- Blocks are stopped one after the other. -/
theorem run_stopAll {n j len : Nat} {stopped : List Int}
    (hblocks : ∀ index, index ∈ m.blockStarted ↔ 0 ≤ index ∧ index < n) (hn : n = j + len)
    (hstopped : ∀ index, index ∈ m.blockStopped ↔ 0 ≤ index ∧ index < j)
    (heq : m.blockStopped = stopped) :
    ∃ stopped', run next (.streaming n stopped) (m.stopAll (indexes j len)).2 =
        some (.streaming n stopped') ∧
      ∀ i < n, (i : Int) ∈ stopped' := by
  induction len generalizing j m stopped with
  | zero =>
    refine ⟨stopped, rfl, fun i hi => ?_⟩
    rw [← heq, hstopped]
    omega
  | succ len ih =>
    have hin : (j : Int) ∈ m.blockStarted := (hblocks j).mpr (by omega)
    have hnot : (j : Int) ∉ m.blockStopped := by rw [hstopped]; omega
    have hopen : isOpen n m.blockStopped j = true := by
      simp only [isOpen, decide_eq_true_eq]
      exact ⟨by omega, by omega, hnot⟩
    rw [indexes_succ, stopAll]
    simp only [hin, hnot, not_false_eq_true, and_self, if_true, ← heq, run_append,
      run_cons, MessPhase.next, hopen]
    refine ih (j := j + 1) hblocks (by omega) (fun index => ?_) rfl
    have := hstopped index
    simp only [mem_cons, this]
    omega

/-- Nothing has been sent. -/
structure Idle (done : Bool) (m : ChatMapper) : Prop extends m.Numbered where
  empty : m.blockOrder = []
  started : m.started = false
  flag : m.done = done

/-- What the client has seen, before and after `message_start`. -/
def Shows (m : ChatMapper) (phase : MessPhase) : Prop :=
  Streams false m phase ∨ Idle false m ∧ phase = .fresh

theorem streams_startMessage (h : Streams done m phase ∨ Idle done m ∧ phase = .fresh)
    (cacheRead : Option Int) :
    ∃ phase', run next phase (m.startMessage cacheRead).2 = some phase' ∧
      Streams done (m.startMessage cacheRead).1 phase' := by
  rcases h with h | ⟨h, rfl⟩
  · exact ⟨phase, by simp [startMessage, h.started], by simpa [startMessage, h.started] using h⟩
  · have hnone : m.blockStarted = [] := by
      have := h.bounded
      rw [h.empty] at this
      exact eq_nil_of_length_eq_zero (by simpa using this)
    refine ⟨.streaming 0 [], by simp [startMessage, h.started, MessPhase.next], ?_⟩
    simp only [startMessage, h.started]
    exact { h with phase_eq := by simp [hnone], started := rfl }

theorem run_finishChatStream (h : m.Shows phase) :
    run next phase m.finishChatStream.2 = some .ended := by
  have hdone : Streams true { m with done := true } phase ∨
      Idle true { m with done := true } ∧ phase = .fresh := by
    rcases h with h | ⟨h, hphase⟩
    · exact .inl { h with flag := rfl }
    · exact .inr ⟨{ h with flag := rfl }, hphase⟩
  obtain ⟨phase₁, hrun₁, h₁⟩ := streams_startMessage hdone none
  simp only [finishChatStream]
  generalize { m with done := true }.startMessage none = r₁ at *
  obtain ⟨m₁, start⟩ := r₁
  have horder : indexes 0 m₁.blockOrder.length = m₁.blockOrder := by
    rw [indexes, ← range_eq_range', ← h₁.order]
  obtain ⟨phase₂, hrun₂, h₂, hall, hsame⟩ := run_startAll h₁ (Nat.zero_le _) (Nat.zero_add _).symm
  rw [horder] at hrun₂ h₂ hall hsame
  generalize m₁.startAll m₁.blockOrder = r₂ at *
  obtain ⟨m₂, starts⟩ := r₂
  dsimp only at *
  have hlen : m₂.blockStarted.length = m₁.blockOrder.length := by
    have := h₂.allStarted_iff.mp hall
    rw [h₂.next, hsame] at this
    omega
  have hstopped : ∀ index, index ∈ m₂.blockStopped ↔ 0 ≤ index ∧ index < ((0 : Nat) : Int) := by
    intro index
    rw [h₂.stopped]
    simp only [not_mem_nil, false_iff]
    omega
  obtain ⟨stopped, hrun₃, hclosed⟩ := run_stopAll h₂.blocks
    (hlen.trans (Nat.zero_add _).symm) hstopped h₂.stopped
  rw [horder, ← h₂.phase_eq] at hrun₃
  rw [hsame, run_append, run_append, run_append, hrun₁, bind_some, hrun₂,
    bind_some, hrun₃, bind_some]
  simp only [run_cons, MessPhase.next]
  rw [if_pos hclosed]
  rfl

/-! ### Chunks -/

/-- The mapper when it comes to the delta of a chunk. -/
def opened (m : ChatMapper) (event : Obj) : ChatMapper :=
  ((m.noteChunk event).startMessage (some (m.noteChunk event).cached)).1

/-- The chunk carries no error, and a block that it starts comes after every block before it. -/
def ChunkInOrder (m : ChatMapper) (data : Payload) : Prop :=
  ∀ event, data.object = some event → objField event "error" = none ∧
    ∀ choice, firstChoice event = some choice → ∀ delta, objField choice "delta" = some delta →
      Run.Each nextPiece PieceInOrder (m.opened event) (chatPieces delta)

theorem shows_noteChunk (h : m.Shows phase) (event : Obj) : (m.noteChunk event).Shows phase := by
  unfold noteChunk captureChatUsage
  split
  all_goals
    rcases h with h | ⟨h, hphase⟩
    · exact .inl { h with }
    · exact .inr ⟨{ h with }, hphase⟩

theorem tells_deltaToMess (h : Streams done m phase) (delta : Obj) :
    Tells done phase (m.chatDeltaToMessEvents delta)
      (Run.Each nextPiece PieceInOrder m (chatPieces delta)) :=
  tells_outputs (fun _ _ p _ hs => tells_piece hs p) h

theorem Streams.withReason (h : Streams done m phase) (reason : String) :
    Streams done { m with reason } phase :=
  { h with }

theorem shows_done (h : m.Shows phase) : m.done = false := by
  rcases h with h | ⟨h, -⟩ <;> exact h.flag

theorem tells_chunk (h : m.Shows phase) {data : Payload} (hnot : ¬ isDone data) :
    Monitor.Tells next Shows phase (m.chatToMessEvents data) (m.ChunkInOrder data) := by
  simp only [chatToMessEvents, shows_done h, Bool.false_eq_true, if_false, hnot]
  cases hdata : data.object with
  | none =>
    have htrue : m.ChunkInOrder data := by simp [ChunkInOrder, hdata]
    exact ⟨fun _ => ⟨phase, rfl, h⟩, fun hnot => absurd htrue hnot⟩
  | some event =>
    dsimp only [chunk]
    cases herror : objField event "error" with
    | some e =>
      refine ⟨fun hin => absurd ((hin event hdata).1.symm.trans herror) (by simp), fun _ => ?_⟩
      rcases h with h | ⟨-, rfl⟩
      · simp [h.phase_eq, MessPhase.next]
      · simp [MessPhase.next]
    | none =>
      obtain ⟨phase₁, hrun, hstreams⟩ :=
        streams_startMessage (shows_noteChunk h event) (some (m.noteChunk event).cached)
      change Streams false (m.opened event) phase₁ at hstreams
      dsimp only
      cases hchoice : firstChoice event with
      | none =>
        have htrue : m.ChunkInOrder data := by simp [ChunkInOrder, hdata, herror, hchoice]
        exact ⟨fun _ => ⟨phase₁, hrun, .inl hstreams⟩, fun hnot => absurd htrue hnot⟩
      | some choice =>
        dsimp only
        cases hdelta : objField choice "delta" with
        | none =>
          have htrue : m.ChunkInOrder data := by simp [ChunkInOrder, hdata, herror, hchoice, hdelta]
          refine ⟨fun _ => ⟨phase₁, by simpa using hrun, .inl (hstreams.withReason _)⟩,
            fun hnot => absurd htrue hnot⟩
        | some delta =>
          have hiff : m.ChunkInOrder data ↔
              Run.Each nextPiece PieceInOrder (m.opened event) (chatPieces delta) := by
            simp [ChunkInOrder, hdata, herror, hchoice, hdelta]
          obtain ⟨hgood, hbad⟩ := tells_deltaToMess hstreams delta
          rw [hiff]
          refine ⟨fun hin => ?_, fun hout => ?_⟩
          · obtain ⟨phase', hrun', hstreams'⟩ := hgood hin
            exact ⟨phase', by rw [run_append, hrun]; exact hrun', .inl (hstreams'.withReason _)⟩
          · rw [run_append, hrun]
            exact hbad hout

def nextMess (m : ChatMapper) (data : Payload) : ChatMapper := (m.chatToMessEvents data).1

/-- What a client gets of a stream. -/
def messEvents : ChatMapper → List Payload → List MessEvent :=
  outputs nextMess fun m data => (m.chatToMessEvents data).2

theorem shows_new : ({} : ChatMapper).Shows .fresh :=
  .inr ⟨⟨⟨rfl, rfl, by simp, by simp, by simp, by simp, by simp, rfl⟩, rfl, rfl, rfl⟩, rfl⟩

/-- A Messages client gets a well-formed stream exactly if every chunk is in order. -/
theorem wellFormed_messEvents_iff {chunks : List Payload} (hchunks : ∀ data ∈ chunks, ¬ isDone data)
    {last : Payload} (hlast : isDone last) :
    WellFormed (messEvents {} (chunks ++ [last])) ↔ Run.Each nextMess ChunkInOrder {} chunks := by
  have htells : Monitor.Tells next Shows .fresh
      (chunks.foldl nextMess {}, messEvents {} chunks)
      (Run.Each nextMess ChunkInOrder {} chunks) :=
    tells_outputs (fun _ _ data hdata hs => tells_chunk hs (hchunks data hdata)) shows_new
  have hconcat : messEvents {} (chunks ++ [last]) = messEvents {} chunks ++
      ((chunks.foldl nextMess {}).chatToMessEvents last).2 := by
    simp [messEvents, Monitor.outputs_append, Monitor.outputs]
  rw [WellFormed, hconcat, run_append]
  by_cases heach : Run.Each nextMess ChunkInOrder {} chunks
  · obtain ⟨phase, hrun, hshows⟩ := htells.1 heach
    have hopen := shows_done hshows
    dsimp only at hopen
    rw [hrun]
    simp only [chatToMessEvents, hopen, hlast, heach, iff_true]
    exact run_finishChatStream hshows
  · have hnone := htells.2 heach
    simp [hnone, heach]

end ChatMapper

/-- The two mappers for a Messages client put out a well-formed stream exactly if every upstream
event finds the blocks in a state in which it may start or write to its own. -/
theorem messages_wellFormed_iff (events : List SseEvent) (hresp : RespMapper.IsRespStream events)
    (chunks : List Payload) (hchunks : ∀ data ∈ chunks, ¬ ChatMapper.isDone data)
    (last : Payload) (hlast : ChatMapper.isDone last) :
    (WellFormed (RespMapper.messEvents {} events) ↔
      Run.Each RespMapper.nextMess RespMapper.InOrder {} events) ∧
    (WellFormed (ChatMapper.messEvents {} (chunks ++ [last])) ↔
      Run.Each ChatMapper.nextMess ChatMapper.ChunkInOrder {} chunks) :=
  ⟨RespMapper.wellFormed_messEvents_iff hresp, ChatMapper.wellFormed_messEvents_iff hchunks hlast⟩

def namedEvent (name : String) (fields : Obj) : SseEvent where
  name
  data := .json (.obj fields)

def deltaChunk (delta : Obj) : Payload :=
  .json (.obj [("choices", .arr [.obj [("index", .num 0), ("delta", .obj delta)]])])

theorem messages_wellFormed_answer :
    let events :=
      [namedEvent "response.created" [("response", .obj [("id", .str "r1")])],
        namedEvent "response.output_text.delta" [("delta", .str "Hi")],
        namedEvent "response.output_text.done" [("text", .str "Hi")],
        namedEvent "response.completed" [("response", .obj [("status", .str "completed")])]]
    let chunks := [deltaChunk [("content", .str "Hi")]]
    Run.Each RespMapper.nextMess RespMapper.InOrder {} events ∧
      Run.Each ChatMapper.nextMess ChatMapper.ChunkInOrder {} chunks := by
  intro events chunks
  have hresp : RespMapper.IsRespStream events :=
    ⟨_, events.tail.dropLast, _, rfl, ⟨by decide, rfl⟩, ⟨by decide, rfl⟩, by decide⟩
  have hiff := messages_wellFormed_iff events hresp chunks (by decide) (.text "[DONE]") (by decide)
  exact ⟨hiff.1.mp (by decide), hiff.2.mp (by decide)⟩

/-- A reasoning item without a summary, and a message. -/
def reasonedStream : List SseEvent :=
  [namedEvent "response.created" [("response", .obj [("id", .str "r1")])],
    namedEvent "response.output_item.added"
      [("output_index", .num 0), ("item", .obj [("type", .str "reasoning")])],
    namedEvent "response.output_item.done"
      [("output_index", .num 0), ("item", .obj [("type", .str "reasoning")])],
    namedEvent "response.output_item.added"
      [("output_index", .num 1), ("item", .obj [("type", .str "message")])],
    namedEvent "response.output_text.delta" [("output_index", .num 1), ("delta", .str "Hi")],
    namedEvent "response.output_text.done" [("output_index", .num 1), ("text", .str "Hi")],
    namedEvent "response.completed" [("response", .obj [("status", .str "completed")])]]

/-- A call without arguments, and a text after it. -/
def calledStream : List Payload :=
  [deltaChunk [("tool_calls", .arr [.obj [("index", .num 0), ("id", .str "c1"),
      ("function", .obj [("name", .str "now"), ("arguments", .str "")])]])],
    deltaChunk [("content", .str "Hi")]]

/-- The thinking block of the one stream is never stopped, and the other one starts block 1 before
block 0. -/
theorem messages_not_wellFormed :
    RespMapper.IsRespStream reasonedStream ∧
      ¬ WellFormed (RespMapper.messEvents {} reasonedStream) ∧
      ¬ WellFormed (ChatMapper.messEvents {} (calledStream ++ [.text "[DONE]"])) :=
  ⟨⟨_, reasonedStream.tail.dropLast, _, rfl, ⟨by decide, rfl⟩, ⟨by decide, rfl⟩, by decide⟩,
    by decide, by decide⟩

end C4Gateway.Protoconv
