import C4Gateway.Protoconv.Terminal

/-! The order of the content blocks that `mapRespToMess` puts out, against the Messages protocol. -/

namespace C4Gateway.Protoconv.RespMapper

open Monitor
open MessPhase (next)

/-- The block is there already, or it is the next one. -/
def Startable (m : RespMapper) (index : Int) : Prop :=
  index ∈ m.blockStarted ∨ index = m.blockStarted.length

def IsOpen (m : RespMapper) (index : Int) : Prop :=
  index ∈ m.blockStarted ∧ index ∉ m.blockStopped

def Writable (m : RespMapper) (index : Int) : Prop :=
  m.Startable index ∧ index ∉ m.blockStopped

/-- The event starts no block but the next one and writes to no block but an open one, and the
response completes with every block stopped. -/
def InOrder (m : RespMapper) (e : SseEvent) : Prop :=
  match e.data.object with
  | none => True
  | some ev =>
    match e.respName with
    | .reasoningDelta => (str ev "delta").getD "" ≠ "" →
        m.Writable (m.respReasoningBlock (intOr0 ev "summary_index")).2
    | .textDelta => m.Writable m.respTextBlock.2
    | .itemAdded =>
      match objField ev "item" with
      | none => True
      | some item =>
        if str item "type" = some "reasoning" then
          m.Startable (m.respReasoningBlock (intOr0 ev "summary_index")).2
        else if str item "type" = some "function_call" then
          m.Startable (m.respToolBlock (intOr0 ev "output_index")).2
        else True
    | .argumentsDelta => m.IsOpen (m.respToolBlock (intOr0 ev "output_index")).2
    | .completed => ∀ index ∈ m.blockStarted, index ∈ m.blockStopped
    | _ => True

/-- The blocks of the mapper are those that a client has seen. -/
structure Shows (m : RespMapper) (phase : MessPhase) : Prop where
  phase_eq : phase = .streaming m.blockStarted.length m.blockStopped
  blocks : ∀ index, index ∈ m.blockStarted ↔ 0 ≤ index ∧ index < m.blockStarted.length
  stopped : ∀ index ∈ m.blockStopped, index ∈ m.blockStarted
  started : m.started = true
  open_ : m.done = false

variable {m m' : RespMapper} {phase : MessPhase}

theorem Shows.congr (h : m.Shows phase) (hsame : SameBlocks m m') : m'.Shows phase where
  phase_eq := by rw [hsame.blockStarted, hsame.blockStopped]; exact h.phase_eq
  blocks := by rw [hsame.blockStarted]; exact h.blocks
  stopped := by rw [hsame.blockStarted, hsame.blockStopped]; exact h.stopped
  started := hsame.started.trans h.started
  open_ := hsame.done.trans h.open_

theorem Shows.isOpen_iff (h : m.Shows phase) (index : Int) :
    isOpen m.blockStarted.length m.blockStopped index = true ↔ m.IsOpen index := by
  simp [isOpen, IsOpen, h.blocks, and_assoc]

theorem SameBlocks.startable (h : SameBlocks m m') : m'.Startable = m.Startable := by
  funext index
  simp [Startable, h.blockStarted]

theorem SameBlocks.writable (h : SameBlocks m m') : m'.Writable = m.Writable := by
  funext index
  simp [Writable, h.startable, h.blockStopped]

theorem SameBlocks.isOpen (h : SameBlocks m m') : m'.IsOpen = m.IsOpen := by
  funext index
  simp [IsOpen, h.blockStarted, h.blockStopped]

/-- The client accepts the events exactly if the condition holds. -/
abbrev Tells (phase : MessPhase) (r : RespMapper × List MessEvent) (condition : Prop) : Prop :=
  Monitor.Tells next Shows phase r condition

section
variable (h : m.Shows phase)
include h

theorem tells_startBlock (index : Int) (block : ContentBlock) :
    Tells phase (m.startBlock index block) (m.Startable index) := by
  unfold startBlock
  split
  next hin =>
    exact ⟨fun _ => ⟨phase, rfl, h⟩, fun hnot => absurd (.inl hin) hnot⟩
  next hin =>
    constructor
    · rintro (hin' | hnext)
      · exact absurd hin' hin
      · refine ⟨.streaming (m.blockStarted.length + 1) m.blockStopped, ?_, ⟨rfl, fun i => ?_, ?_,
          h.started, h.open_⟩⟩
        · simp [h.phase_eq, next, hnext]
        · have := h.blocks i
          simp only [List.mem_cons, this, List.length_cons]
          omega
        · exact fun i hi => .tail _ (h.stopped i hi)
    · intro hnot
      have hne : ¬ index = m.blockStarted.length := fun heq => hnot (.inr heq)
      simp [h.phase_eq, next, hne]

theorem tells_stopBlock (index : Int) : Tells phase (m.stopBlock index) True := by
  unfold stopBlock
  split
  next hopen =>
    refine ⟨fun _ => ⟨.streaming m.blockStarted.length (index :: m.blockStopped), ?_,
      ⟨rfl, h.blocks, ?_, h.started, h.open_⟩⟩, fun hnot => absurd trivial hnot⟩
    · simp [h.phase_eq, next, (h.isOpen_iff index).mpr hopen]
    · intro i hi
      rcases List.mem_cons.mp hi with rfl | hi
      · exact hopen.1
      · exact h.stopped i hi
  · exact tells_nil h

theorem tells_delta (index : Int) (delta : BlockDelta) :
    Tells phase (m, [.blockDelta index delta]) (m.IsOpen index) := by
  constructor
  · intro hopen
    exact ⟨phase, by simp [h.phase_eq, next, (h.isOpen_iff index).mpr hopen], h⟩
  · intro hclosed
    simp [h.phase_eq, next, (h.isOpen_iff index).not.mpr hclosed]

theorem tells_writeBlock (index : Int) (block : ContentBlock) (delta : BlockDelta) :
    Tells phase (m.writeBlock index block delta) (m.Writable index) := by
  have hin : index ∈ (m.startBlock index block).1.blockStarted := by
    unfold startBlock
    split
    · assumption
    · exact List.mem_cons_self ..
  have hstopped : (m.startBlock index block).1.blockStopped = m.blockStopped := by
    unfold startBlock
    split <;> rfl
  have hdelta : ∀ phase', m.Startable index → (m.startBlock index block).1.Shows phase' →
      Tells phase' ((m.startBlock index block).1, [.blockDelta index delta])
        (index ∉ m.blockStopped) := by
    intro phase' _ hshows
    simpa only [IsOpen, hin, hstopped, true_and] using tells_delta hshows index delta
  exact (tells_startBlock h index block).append hdelta

theorem tells_mapRespToMess (e : SseEvent) (hnot : ¬ e.respName.isTerminal) :
    Tells phase (m.mapRespToMess e.respName e.data) (m.InOrder e) := by
  unfold mapRespToMess InOrder
  cases e.data.object with
  | none => exact tells_nil h
  | some ev =>
    have hreason : SameBlocks m (m.respReasoningBlock (intOr0 ev "summary_index")).1 :=
      sameBlocks_keyedBlock ..
    have htool : SameBlocks m (m.respToolBlock (intOr0 ev "output_index")).1 :=
      sameBlocks_keyedBlock ..
    have htext := m.sameBlocks_respTextBlock
    cases hname : e.respName with
    | completed | incomplete | failed =>
      rw [hname] at hnot
      exact absurd rfl hnot
    | other => exact tells_nil h
    | created =>
      simp only [respToMessEvents, h.started]
      exact tells_nil h
    | reasoningDelta =>
      dsimp only [respToMessEvents]
      split
      next hempty =>
        simpa [hempty] using tells_nil h
      next hdelta =>
        rw [imp_iff_right hdelta, ← hreason.writable]
        exact tells_writeBlock (h.congr hreason) _ _ _
    | reasoningDone => exact tells_stopBlock (h.congr hreason) _
    | textDelta =>
      rw [← htext.writable]
      exact tells_writeBlock (h.congr htext) _ _ _
    | textDone => exact tells_stopBlock (h.congr htext) _
    | itemAdded =>
      dsimp only [respToMessEvents]
      cases objField ev "item" with
      | none => exact tells_nil h
      | some item =>
        dsimp only
        by_cases hitem : str item "type" = some "reasoning"
        · rw [if_pos hitem, if_pos hitem, ← hreason.startable]
          exact tells_startBlock (h.congr hreason) _ _
        · rw [if_neg hitem, if_neg hitem]
          by_cases hcall : str item "type" = some "function_call"
          · rw [if_pos hcall, if_pos hcall, ← htool.startable]
            exact tells_startBlock (h.congr htool) _ _
          · rw [if_neg hcall, if_neg hcall]
            exact tells_nil h
    | argumentsDelta =>
      rw [← htool.isOpen]
      exact tells_delta (h.congr htool) _ _
    | argumentsDone => exact tells_stopBlock (h.congr htool) _

end

/-- The mapper after one event of a stream. -/
def nextMess (m : RespMapper) (e : SseEvent) : RespMapper := (m.mapRespToMess e.respName e.data).1

/-- What a client gets of a stream. -/
def messEvents : RespMapper → List SseEvent → List MessEvent :=
  outputs nextMess fun m e => (m.mapRespToMess e.respName e.data).2

theorem messEvents_cons (m : RespMapper) (e : SseEvent) (events : List SseEvent) :
    messEvents m (e :: events) =
      (m.mapRespToMess e.respName e.data).2 ++ messEvents (nextMess m e) events := rfl

theorem messEvents_concat (m : RespMapper) (events : List SseEvent) (e : SseEvent) :
    messEvents m (events ++ [e]) = messEvents m events ++
      ((events.foldl nextMess m).mapRespToMess e.respName e.data).2 := by
  simp [messEvents, outputs_append, outputs]

/-- A Responses stream: `response.created`, any events that do not end it, and
`response.completed`. -/
def IsRespStream (events : List SseEvent) : Prop :=
  ∃ first mid last, events = first :: (mid ++ [last]) ∧
    (first.respName = .created ∧ first.data.object.isSome) ∧
    (last.respName = .completed ∧ last.data.object.isSome) ∧
    ∀ e ∈ mid, e.eventName ≠ "" ∧ ¬ e.respName.isTerminal

theorem shows_first {first : SseEvent} (hname : first.respName = .created)
    (hobj : first.data.object.isSome) :
    ∃ phase, run next .fresh
        (({} : RespMapper).mapRespToMess first.respName first.data).2 = some phase ∧
      (nextMess {} first).Shows phase := by
  obtain ⟨ev, hev⟩ := Option.isSome_iff_exists.mp hobj
  refine ⟨.streaming 0 [], ?_, ?_⟩
  · simp [mapRespToMess, hev, hname, respToMessEvents, next]
  · simp only [nextMess, mapRespToMess, hev, hname, respToMessEvents]
    exact ⟨rfl, by simp, by simp, rfl, rfl⟩

theorem run_last (h : m.Shows phase) {last : SseEvent} (hname : last.respName = .completed)
    (hobj : last.data.object.isSome) :
    run next phase (m.mapRespToMess last.respName last.data).2 = some .ended ↔
      m.InOrder last := by
  obtain ⟨ev, hev⟩ := Option.isSome_iff_exists.mp hobj
  have hall : (∀ i < m.blockStarted.length, (i : Int) ∈ m.blockStopped) ↔ m.InOrder last := by
    simp only [InOrder, hev, hname]
    constructor
    · intro hall index hin
      obtain ⟨hge, hlt⟩ := (h.blocks index).mp hin
      have := hall index.toNat (by omega)
      rwa [Int.toNat_of_nonneg hge] at this
    · intro hall i hi
      exact hall i ((h.blocks i).mpr ⟨by omega, by omega⟩)
  simp only [mapRespToMess, hev, hname, respToMessEvents, h.open_, Bool.false_eq_true, if_false,
    h.phase_eq, run_cons, next]
  split <;> simp_all

/-- A Messages client gets a well-formed stream exactly if every event is in order. -/
theorem wellFormed_messEvents_iff {events : List SseEvent} (h : IsRespStream events) :
    WellFormed (messEvents {} events) ↔ Run.Each nextMess InOrder {} events := by
  obtain ⟨first, mid, last, rfl, ⟨hfirst, hfirstObj⟩, ⟨hlast, hlastObj⟩, hmid⟩ := h
  obtain ⟨phase, hstart, hshows⟩ := shows_first hfirst hfirstObj
  have hcreated : ({} : RespMapper).InOrder first := by
    simp only [InOrder, hfirst]
    split <;> trivial
  have htells : Tells phase (mid.foldl nextMess (nextMess {} first),
      messEvents (nextMess {} first) mid) (Run.Each nextMess InOrder (nextMess {} first) mid) :=
    tells_outputs (fun _ _ e he hs => tells_mapRespToMess hs e (hmid e he).2) hshows
  rw [WellFormed, messEvents_cons, messEvents_concat, run_append, hstart, Option.bind_some,
    run_append]
  simp only [Run.Each, hcreated, true_and, Run.Each.append, and_true]
  by_cases hmid' : Run.Each nextMess InOrder (nextMess {} first) mid
  · obtain ⟨phase', hrun, hshows'⟩ := htells.1 hmid'
    rw [hrun, and_iff_right hmid']
    exact run_last hshows' hlast hlastObj
  · have hnone := htells.2 hmid'
    simp [hnone, hmid']

end C4Gateway.Protoconv.RespMapper
