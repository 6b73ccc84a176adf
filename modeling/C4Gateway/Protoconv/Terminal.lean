import C4Gateway.Protoconv.RespStream

/-! How a mapped stream of a Responses upstream ends: the client waits for one terminal marker after
which nothing comes, and for a finish reason that shows a truncated response as one. -/

namespace C4Gateway.Protoconv

open Option List

def SseEvent.respName (e : SseEvent) : RespEventName := .ofString e.eventName

def ChatFrame.isTerminal : ChatFrame → Bool
  | .done | .error _ => true
  | .chunk _ => false
  | .raw (.text s) => s = "[DONE]"
  | .raw (.json _) => false

def MessFrame.isTerminal : MessFrame → Bool
  | .event .messageStop | .event (.error ..) => true
  | .event _ | .raw _ => false

/-- One marker, and it is the last frame. -/
def EndsOnce {F : Type} (marker : F → Bool) (frames : List F) : Prop :=
  ∃ init last, frames = init ++ [last] ∧ marker last ∧ ∀ f ∈ init, ¬ marker f

/-- The response is cut off at the token limit: it is incomplete, by the name of its last event or
by the status in it. -/
def Truncated (field : Obj → String → Option Json) (t : SseEvent) : Prop :=
  t.respName = .incomplete ∨
    t.respName = .completed ∧ ∃ ev, t.data = .json (.obj ev) ∧ ∃ resp,
      (field ev "response").bind Json.asObj = some resp ∧
      (field resp "status").bind Json.asStr = some "incomplete"

/-- What a Chat client is to get for a response that ends with `t`. -/
def ChatEnds (t : SseEvent) (frames : List ChatFrame) : Prop :=
  EndsOnce ChatFrame.isTerminal frames ∧
    (Truncated Json.firstField t → ∃ c, .chunk c ∈ frames ∧ c.finishReason = some "length")

/-- What a Messages client is to get for a response that ends with `t`. -/
def MessEnds (t : SseEvent) (frames : List MessFrame) : Prop :=
  EndsOnce MessFrame.isTerminal frames ∧
    (Truncated Json.lastField t → ∃ ot, .event (.messageDelta "max_tokens" ot) ∈ frames)

variable {F : Type} {frames : List F} {marker : F → Bool}

theorem endsOnce_append_iff {init : List F} (hinit : ∀ f ∈ init, ¬ marker f) :
    EndsOnce marker (init ++ frames) ↔ EndsOnce marker frames := by
  constructor
  · rintro ⟨front, last, heq, hlast, hfront⟩
    rcases eq_nil_or_concat frames with rfl | ⟨rest, last', rfl⟩
    · rw [append_nil] at heq
      exact absurd hlast (hinit last (by simp [heq]))
    · rw [concat_eq_append, ← append_assoc] at heq
      obtain ⟨rfl, hsame⟩ := append_inj' heq rfl
      obtain rfl := singleton_inj.mp hsame
      refine ⟨rest, last', by simp, hlast, fun f hf => hfront f ?_⟩
      exact mem_append_right _ hf
  · rintro ⟨front, last, rfl, hlast, hfront⟩
    refine ⟨init ++ front, last, by simp, hlast, fun f hf => ?_⟩
    rcases mem_append.mp hf with hf | hf
    · exact hinit f hf
    · exact hfront f hf

theorem any_of_endsOnce (h : EndsOnce marker frames) : frames.any marker := by
  obtain ⟨init, last, rfl, hlast, -⟩ := h
  simp [hlast]

theorem not_endsOnce_nil (marker : F → Bool) : ¬ EndsOnce marker [] :=
  fun h => absurd (any_of_endsOnce h) (by simp)

namespace RespMapper

/-- The frames of a whole stream. -/
def mapAll {F : Type} (map : RespMapper → SseEvent → RespMapper × List F) :
    RespMapper → List SseEvent → List F :=
  Monitor.outputs (fun m e => (map m e).1) (fun m e => (map m e).2)

variable {name : RespEventName} {e t : SseEvent} {pre : List SseEvent}
  {map : RespMapper → SseEvent → RespMapper × List F} (m : RespMapper) (index : Int)
  (block : ContentBlock)

theorem mapRespToChat_of_not_terminal (hname : ¬ name.isTerminal) (data : Payload) :
    (m.mapRespToChat name data).1.done = m.done ∧
      ∀ f ∈ (m.mapRespToChat name data).2, ¬ f.isTerminal := by
  unfold mapRespToChat
  split
  · cases name <;> first | exact absurd rfl hname | dsimp only [respToChatFrames]
    all_goals
      repeat' split
      all_goals simp [chatChunk, ChatFrame.isTerminal]
  · simp

theorem not_terminal_startBlock :
    ∀ e ∈ (m.startBlock index block).2, ¬ (MessFrame.event e).isTerminal := by
  unfold startBlock
  split <;> simp [MessFrame.isTerminal]

theorem not_terminal_stopBlock : ∀ e ∈ (m.stopBlock index).2, ¬ (MessFrame.event e).isTerminal := by
  unfold stopBlock
  split <;> simp [MessFrame.isTerminal]

theorem not_terminal_writeBlock (delta : BlockDelta) :
    ∀ e ∈ (m.writeBlock index block delta).2, ¬ (MessFrame.event e).isTerminal := by
  intro e he
  rcases mem_append.mp he with he | he
  · exact not_terminal_startBlock m index block e he
  · obtain rfl := mem_singleton.mp he
    simp [MessFrame.isTerminal]

theorem mapRespToMess_of_not_terminal (hname : ¬ name.isTerminal) (data : Payload) :
    (m.mapRespToMess name data).1.done = m.done ∧
      ∀ e ∈ (m.mapRespToMess name data).2, ¬ (MessFrame.event e).isTerminal := by
  unfold mapRespToMess
  split
  next ev hev =>
    have hkey := fun key preferred => (m.sameBlocks_keyedBlock key preferred).done
    have htext := m.sameBlocks_respTextBlock.done
    cases name with
    | completed | incomplete | failed => exact absurd rfl hname
    | other => simp [respToMessEvents]
    | created =>
      dsimp only [respToMessEvents]
      split <;> simp [MessFrame.isTerminal]
    | reasoningDelta =>
      dsimp only [respToMessEvents]
      split
      · simp
      · exact ⟨by simp [writeBlock, respReasoningBlock, hkey], not_terminal_writeBlock _ _ _ _⟩
    | reasoningDone =>
      exact ⟨by simp [respToMessEvents, respReasoningBlock, hkey], not_terminal_stopBlock _ _⟩
    | textDelta =>
      exact ⟨by simp [respToMessEvents, writeBlock, htext], not_terminal_writeBlock _ _ _ _⟩
    | textDone => exact ⟨by simp [respToMessEvents, htext], not_terminal_stopBlock _ _⟩
    | itemAdded =>
      dsimp only [respToMessEvents]
      split
      · simp
      · split
        · exact ⟨by simp [respReasoningBlock, hkey], not_terminal_startBlock _ _ _⟩
        · split
          · exact ⟨by simp [respToolBlock, hkey], not_terminal_startBlock _ _ _⟩
          · simp
    | argumentsDelta =>
      simp [respToMessEvents, respToolBlock, hkey, MessFrame.isTerminal]
    | argumentsDone =>
      exact ⟨by simp [respToMessEvents, respToolBlock, hkey], not_terminal_stopBlock _ _⟩
  · simp

section
variable (hstep : ∀ m (e : SseEvent), e.eventName ≠ "" → ¬ e.respName.isTerminal →
  (map m e).1.done = m.done ∧ ∀ f ∈ (map m e).2, ¬ marker f)
include hstep

/-- Events that do not end the response put out no marker and leave the mapper open. -/
theorem mapAll_of_not_terminal {events : List SseEvent}
    (hevents : ∀ e ∈ events, e.eventName ≠ "" ∧ ¬ e.respName.isTerminal)
    (m : RespMapper) :
    (events.foldl (fun m e => (map m e).1) m).done = m.done ∧
      ∀ f ∈ mapAll map m events, ¬ marker f := by
  induction events generalizing m with
  | nil => simp [mapAll, Monitor.outputs]
  | cons e events ih =>
    obtain ⟨hname, hnot⟩ := hevents e (mem_cons_self ..)
    obtain ⟨hdone, hframes⟩ := hstep m e hname hnot
    obtain ⟨hdone', hframes'⟩ := ih (fun e he => hevents e (mem_cons_of_mem _ he)) (map m e).1
    refine ⟨hdone'.trans hdone, fun f hf => ?_⟩
    rcases mem_append.mp hf with hf | hf
    · exact hframes f hf
    · exact hframes' f hf

/-- The last event of a stream meets a mapper that is still open, after frames without a marker. -/
theorem mapAll_concat {pre : List SseEvent}
    (hpre : ∀ e ∈ pre, e.eventName ≠ "" ∧ ¬ e.respName.isTerminal)
    (t : SseEvent) :
    ∃ (m : RespMapper) (init : List F), m.done = false ∧
      mapAll map {} (pre ++ [t]) = init ++ (map m t).2 ∧ ∀ f ∈ init, ¬ marker f := by
  obtain ⟨hdone, hframes⟩ := mapAll_of_not_terminal hstep hpre {}
  refine ⟨_, mapAll map {} pre, hdone, ?_, hframes⟩
  simp [mapAll, Monitor.outputs_append, Monitor.outputs]

end

theorem eventName_ne_of_terminal (ht : t.respName.isTerminal) : t.eventName ≠ "" := by
  intro hname
  simp [SseEvent.respName, hname, RespEventName.ofString, RespEventName.isTerminal] at ht

theorem mapChat_eq (h : e.eventName ≠ "") :
    m.mapChat e = m.mapRespToChat e.respName e.data := if_neg h

theorem mapMess_eq (h : e.eventName ≠ "") :
    m.mapMess e = ((m.mapRespToMess e.respName e.data).1,
      (m.mapRespToMess e.respName e.data).2.map .event) := if_neg h

theorem mapChat_of_not_terminal (e : SseEvent) (hname : e.eventName ≠ "")
    (hnot : ¬ e.respName.isTerminal) :
    (m.mapChat e).1.done = m.done ∧ ∀ f ∈ (m.mapChat e).2, ¬ f.isTerminal := by
  rw [mapChat_eq m hname]
  exact mapRespToChat_of_not_terminal m hnot e.data

theorem mapMess_of_not_terminal (e : SseEvent) (hname : e.eventName ≠ "")
    (hnot : ¬ e.respName.isTerminal) :
    (m.mapMess e).1.done = m.done ∧ ∀ f ∈ (m.mapMess e).2, ¬ f.isTerminal := by
  rw [mapMess_eq m hname]
  obtain ⟨hdone, hevents⟩ := mapRespToMess_of_not_terminal m hnot e.data
  refine ⟨hdone, fun f hf => ?_⟩
  obtain ⟨e, he, rfl⟩ := mem_map.mp hf
  exact hevents e he

theorem not_truncated_of_failed {field : Obj → String → Option Json} (h : t.respName = .failed) :
    ¬ Truncated field t := by
  rintro (hinc | ⟨hcomp, -⟩)
  · exact absurd (h.symm.trans hinc) (by decide)
  · exact absurd (h.symm.trans hcomp) (by decide)

theorem endsOnce_singleton {f : F} (h : marker f) : EndsOnce marker [f] := ⟨[], f, rfl, h, by simp⟩

/-- A Chat client misses the end of a response exactly if it is incomplete or the last event has
no object. -/
theorem chatEnds_iff (hpre : ∀ e ∈ pre, e.eventName ≠ "" ∧ ¬ e.respName.isTerminal)
    (ht : t.respName.isTerminal) :
    ChatEnds t (mapAll mapChat {} (pre ++ [t])) ↔
      t.respName ≠ .incomplete ∧ ∃ ev, t.data = .json (.obj ev) := by
  obtain ⟨m, init, hdone, hframes, hinit⟩ := mapAll_concat mapChat_of_not_terminal hpre t
  rw [hframes, mapChat_eq m (eventName_ne_of_terminal ht), ChatEnds, endsOnce_append_iff hinit]
  constructor
  · rintro ⟨hends, -⟩
    constructor
    · intro hname
      refine not_endsOnce_nil ChatFrame.isTerminal ?_
      convert hends
      rw [hname]
      unfold mapRespToChat
      split <;> rfl
    · by_contra hobj
      refine not_endsOnce_nil ChatFrame.isTerminal ?_
      convert hends
      unfold mapRespToChat
      split
      next ev hev =>
        exact absurd ⟨ev, hev⟩ hobj
      · rfl
  · rintro ⟨hname, ev, hev⟩
    rw [hev]
    cases hresp : t.respName with
    | completed =>
      simp only [mapRespToChat, respToChatFrames, hdone]
      refine ⟨⟨[_], .done, rfl, rfl, by simp [ChatFrame.isTerminal]⟩, ?_⟩
      rintro (hinc | ⟨-, ev', hev', resp, hfield, hstatus⟩)
      · exact absurd (hresp.symm.trans hinc) (by decide)
      · obtain rfl : ev = ev' := by simpa [hev] using hev'
        have hobj : getObj ev "response" = some resp := hfield
        have hinc : getStr resp "status" = some "incomplete" := hstatus
        exact ⟨_, mem_append_right _ (mem_cons_self ..),
          by simp only [hobj, getD_some, hinc, if_true]⟩
    | failed =>
      refine ⟨?_, ?_⟩
      · simp only [mapRespToChat, respToChatFrames, hdone, Bool.false_eq_true, if_false]
        split <;> exact endsOnce_singleton rfl
      · exact fun h => absurd h (not_truncated_of_failed hresp)
    | incomplete => exact absurd hresp hname
    | _ =>
      rw [hresp] at ht
      cases ht

/-- A Messages client also misses the end of a response that failed without an error object. -/
theorem messEnds_iff (hpre : ∀ e ∈ pre, e.eventName ≠ "" ∧ ¬ e.respName.isTerminal)
    (ht : t.respName.isTerminal) :
    MessEnds t (mapAll mapMess {} (pre ++ [t])) ↔
      t.respName ≠ .incomplete ∧ ∃ ev, t.data.object = some ev ∧
        (t.respName = .failed →
          ((objField ev "response").bind (objField · "error")).isSome) := by
  obtain ⟨m, init, hdone, hframes, hinit⟩ := mapAll_concat mapMess_of_not_terminal hpre t
  rw [hframes, mapMess_eq m (eventName_ne_of_terminal ht), MessEnds, endsOnce_append_iff hinit]
  dsimp only [mapRespToMess]
  cases hobj : t.data.object with
  | none =>
    simp only [map_nil, reduceCtorEq, false_and, exists_false, and_false, iff_false]
    exact fun h => not_endsOnce_nil _ h.1
  | some ev =>
    simp only [some.injEq, exists_eq_left']
    cases hresp : t.respName with
    | completed =>
      simp only [respToMessEvents, hdone, ne_eq,
        reduceCtorEq, not_false_eq_true, false_imp_iff, and_self, iff_true]
      refine ⟨⟨[_], .event .messageStop, rfl, rfl, by simp [MessFrame.isTerminal]⟩, ?_⟩
      rintro (hinc | ⟨-, ev', hev', resp, hfield, hstatus⟩)
      · exact absurd (hresp.symm.trans hinc) (by decide)
      · obtain rfl : ev = ev' := by
          rw [hev'] at hobj
          exact (some_inj.mp hobj).symm
        have hresp' : objField ev "response" = some resp := hfield
        have hinc : str resp "status" = some "incomplete" := hstatus
        have hreason : ((objField ev "response").map respToMessStopReason).getD "" =
            "max_tokens" := by
          simp only [hresp', map_some, getD_some, respToMessStopReason, hinc, if_true]
        rw [hreason]
        exact ⟨_, mem_append_right _ (mem_cons_self ..)⟩
    | failed =>
      simp only [respToMessEvents, hdone, ne_eq, reduceCtorEq, true_imp_iff]
      have hnot : ¬ Truncated Json.lastField t := not_truncated_of_failed hresp
      cases (objField ev "response").bind (objField · "error") with
      | none => simp [not_endsOnce_nil]
      | some e => simpa [hnot] using endsOnce_singleton rfl
    | incomplete => simp [respToMessEvents, not_endsOnce_nil]
    | _ =>
      rw [hresp] at ht
      cases ht

/-- A client gets the end of every response that completes or fails, and a Messages client only if
the failure has an error object; no client gets the end of an incomplete one. -/
theorem mapped_ends_iff (pre : List SseEvent) (t : SseEvent)
    (hpre : ∀ e ∈ pre, e.eventName ≠ "" ∧ ¬ e.respName.isTerminal) (ht : t.respName.isTerminal) :
    (ChatEnds t (mapAll mapChat {} (pre ++ [t])) ↔
      t.respName ≠ .incomplete ∧ ∃ ev, t.data = .json (.obj ev)) ∧
    (MessEnds t (mapAll mapMess {} (pre ++ [t])) ↔
      t.respName ≠ .incomplete ∧ ∃ ev, t.data.object = some ev ∧
        (t.respName = .failed →
          ((objField ev "response").bind (objField · "error")).isSome)) :=
  ⟨chatEnds_iff hpre ht, messEnds_iff hpre ht⟩

def createdEvent : SseEvent where
  name := "response.created"
  data := .json (.obj [("response", .obj [("id", .str "r1"), ("model", .str "m")])])

def textDeltaEvent (text : String) : SseEvent where
  name := "response.output_text.delta"
  data := .json (.obj [("delta", .str text)])

/-- The last event of a response that was cut off. -/
def incompleteEvent : SseEvent where
  name := "response.incomplete"
  data := .json (.obj [("response", .obj [("status", .str "incomplete"),
    ("incomplete_details", .obj [("reason", .str "max_output_tokens")])])])

def failedEvent : SseEvent where
  name := "response.failed"
  data := .json (.obj [("response", .obj [("status", .str "failed")])])

theorem mapped_ends_failed :
    ChatEnds failedEvent
        (mapAll mapChat {} ([createdEvent, textDeltaEvent "Hi"] ++ [failedEvent])) ∧
      ¬ MessEnds failedEvent
        (mapAll mapMess {} ([createdEvent, textDeltaEvent "Hi"] ++ [failedEvent])) := by
  have hiff := mapped_ends_iff [createdEvent, textDeltaEvent "Hi"] failedEvent
    (by decide) (by decide)
  refine ⟨hiff.1.mpr ⟨by decide, _, rfl⟩, fun h => ?_⟩
  obtain ⟨-, ev, hev, hfail⟩ := hiff.2.mp h
  obtain rfl := some_inj.mp hev
  exact absurd (hfail (by decide)) (by decide)

/-- Nobody tells the client that the response is over, and that it was cut off. -/
theorem incomplete_without_end :
    ¬ ChatEnds incompleteEvent
        (mapAll mapChat {} [createdEvent, textDeltaEvent "Hi", incompleteEvent]) ∧
      ¬ MessEnds incompleteEvent
        (mapAll mapMess {} [createdEvent, textDeltaEvent "Hi", incompleteEvent]) ∧
      ¬ MessEnds failedEvent
        (mapAll mapMess {} [createdEvent, textDeltaEvent "Hi", failedEvent]) :=
  ⟨fun h => absurd (any_of_endsOnce h.1) (by decide),
    fun h => absurd (any_of_endsOnce h.1) (by decide),
    fun h => absurd (any_of_endsOnce h.1) (by decide)⟩

end RespMapper
end C4Gateway.Protoconv
