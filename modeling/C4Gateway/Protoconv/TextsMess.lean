import C4Gateway.Protoconv.TextsChat

/-! The texts of a Messages and of a Responses request, converted to the other protocols.  The
string content of an assistant is dropped on the way to the Responses protocol, and an item without
a type on the way from it. -/

namespace C4Gateway.Protoconv

open Speaker (ofRole)
open Option
open Turn (spoken)
open ItemType (ofJson)
open Json (lastField asStr asObj asArr)

open List

/-! ### Messages to Responses -/

theorem objects_append (l l' : List Json) : objects (l ++ l') = objects l ++ objects l' :=
  filterMap_append

variable {α : Type} {speaker : Speaker} {blocks : List Json} {name : String} (codec : Codec)
  (log : MessLog) (content : Option Json) (m im req : Obj)

theorem anthropicSystem_same : SameInstructions (systemTexts req) (anthropicSystem req).toList := by
  unfold systemTexts anthropicSystem
  rcases lastField req "system" with _ | (_ | _ | _ | s | parts | _)
  case some.str => exact .refl [s]
  case some.arr => exact joinStrings_same _
  all_goals exact .refl []

/-- Items made of blocks that say nothing. -/
theorem blocksOf_silent {type : String} {make : Obj → Option Json} {read : Obj → List α}
    (h : ∀ b im, (make b).bind asObj = some im → read im = []) (blocks : List Json) :
    (objects (blocksOf type make blocks)).flatMap read = [] := by
  rw [flatMap_eq_nil_iff]
  intro im him
  obtain ⟨item, hitem, hobj⟩ := mem_filterMap.mp him
  obtain ⟨b, -, hb⟩ := mem_filterMap.mp hitem
  split at hb
  · exact h b im (by rw [hb]; exact hobj)
  · exact absurd hb (by simp)

theorem partTexts_messTextParts {textType : String} (h : textType ∈ respTypes)
    (blocks : List Json) :
    partTexts lastField respTypes (messTextParts textType blocks) =
      partTexts lastField ["text"] blocks := by
  refine partTexts_filterMap (fun b => ?_) blocks
  have hpart : ∀ text, (respTextPart textType text).asObj.bind
      (partText lastField respTypes) = some text := by
    intro text
    simp [respTextPart, partText, h]
  rw [partText_of_type, ← str, ← str]
  dsimp only
  split
  · cases str b "text" with
    | none => rfl
    | some text => exact hpart text
  · rfl

theorem respMessageItems_texts (hname : ofRole (Role.ofString (some name)) = some speaker)
    (parts : List Json) :
    (objects (respMessageItems name parts)).flatMap respInstructionTexts = [] ∧
      ((objects (respMessageItems name parts)).flatMap respTurn).filter spoken =
        [{ speaker, texts := partTexts lastField respTypes parts }].filter spoken :=
  message_texts hname (by simp) (by simp) (by simp)

theorem toolResults_silent (make : String → String → Json) (read : Obj → List α)
    (h : ∀ id text im, (make id text).asObj = some im → read im = []) (blocks : List Json) :
    (objects (toolResults make blocks)).flatMap read = [] := by
  refine blocksOf_silent (fun b im him => ?_) blocks
  exact h _ _ im him

theorem toolUses_silent (make : String → String → String → Json) (read : Obj → List α)
    (h : ∀ id name args im, (make id name args).asObj = some im → read im = [])
    (blocks : List Json) : (objects (toolUses codec make blocks)).flatMap read = [] := by
  refine blocksOf_silent (fun b im him => ?_) blocks
  exact h _ _ _ im him

/-- Calls, outputs and reasoning are no messages. -/
theorem functionCallOutput_silent {id text : String} {im : Obj}
    (h : (functionCallOutput id text).asObj = some im) :
    respInstructionTexts im = [] ∧ respTurn im = [] := by
  cases h
  exact item_silent (by simp) (by simp [isMessageItem, ofJson])

theorem functionCall_silent {id args : String} {im : Obj}
    (h : (functionCall id name args).asObj = some im) :
    respInstructionTexts im = [] ∧ respTurn im = [] := by
  cases h
  exact item_silent (by simp) (by simp [isMessageItem, ofJson])

theorem messReasoning_silent (read : Obj → List α)
    (h : ∀ summary, read [("type", .str "reasoning"), ("summary", summary)] = [])
    (blocks : List Json) : (objects (messReasoning blocks)).flatMap read = [] := by
  refine blocksOf_silent (fun b im him => ?_) blocks
  obtain ⟨item, hitem, hobj⟩ := bind_eq_some_iff.mp him
  obtain ⟨t, -, rfl⟩ := map_eq_some_iff.mp hitem
  obtain rfl := Option.some.inj hobj
  exact h _

/-- The assistant's message has a string as its content. -/
def stringAssistant (m : Obj) : Prop :=
  role lastField m = .assistant ∧ ((lastField m "content").bind asStr).isSome

instance (m : Obj) : Decidable (stringAssistant m) := by unfold stringAssistant; infer_instance

theorem messUserItems_texts :
    (objects (messUserItems content)).flatMap respInstructionTexts = [] ∧
      ((objects (messUserItems content)).flatMap respTurn).filter spoken =
        [{ speaker := .user, texts := contentTexts lastField ["text"] content }].filter
          spoken := by
  rcases content with _ | (_ | _ | _ | s | blocks | _)
  case some.str =>
    refine ⟨(respMessageItems_texts user_speaks _).1, ?_⟩
    rw [messUserItems, (respMessageItems_texts user_speaks _).2]
    simp [partTexts_eq, respTextPart, partText, respTypes, contentTexts]
  case some.arr =>
    have hi := toolResults_silent functionCallOutput respInstructionTexts
      (fun _ _ _ h => (functionCallOutput_silent h).1) blocks
    have ht := toolResults_silent functionCallOutput respTurn
      (fun _ _ _ h => (functionCallOutput_silent h).2) blocks
    simp [messUserItems, objects_append, hi, ht,
      (respMessageItems_texts user_speaks _).1, (respMessageItems_texts user_speaks _).2,
      partTexts_messTextParts (by decide : "input_text" ∈ respTypes), contentTexts]
  all_goals exact ⟨rfl, rfl⟩

theorem messAssistantItems_texts :
    (objects (messAssistantItems codec content)).flatMap respInstructionTexts = [] ∧
      ((objects (messAssistantItems codec content)).flatMap respTurn).filter spoken =
        [{ speaker := .assistant
           texts := partTexts lastField ["text"] ((content.bind asArr).getD []) }].filter
          spoken := by
  generalize hb : (content.bind asArr).getD [] = blocks
  have hi := toolUses_silent codec functionCall respInstructionTexts
    (fun _ _ _ _ h => (functionCall_silent h).1) blocks
  have ht := toolUses_silent codec functionCall respTurn
    (fun _ _ _ _ h => (functionCall_silent h).2) blocks
  have hri := messReasoning_silent respInstructionTexts
    (fun _ => by simp [respInstructionTexts, isInstruction, Role.ofString, str]) blocks
  have hrt := messReasoning_silent respTurn
    (fun _ => by simp [respTurn, isMessageItem, ofJson]) blocks
  simp only [messAssistantItems, hb, objects_append, flatMap_append, hi, ht, hri, hrt,
    append_nil, (respMessageItems_texts assistant_speaks _).1,
    (respMessageItems_texts assistant_speaks _).2,
    partTexts_messTextParts (by decide : "output_text" ∈ respTypes), and_self]

theorem messItems_texts :
    (objects (messItems codec m)).flatMap respInstructionTexts = [] ∧
      ((objects (messItems codec m)).flatMap respTurn).filter spoken =
        if stringAssistant m then [] else (messTurn m).filter spoken := by
  have hnot : role lastField m ≠ .assistant → ¬ stringAssistant m := fun h hs => h hs.1
  simp only [messItems, ofString_str, messTurn, turnOf]
  cases hr : role lastField m with
  | user =>
    rw [if_neg (hnot (by rw [hr]; decide))]
    exact messUserItems_texts (lastField m "content")
  | assistant =>
    refine ⟨(messAssistantItems_texts codec _).1, ?_⟩
    rw [(messAssistantItems_texts codec _).2]
    simp only [stringAssistant, hr]
    rcases lastField m "content" with _ | (_ | _ | _ | s | blocks | _) <;> rfl
  | _ =>
    rw [if_neg (hnot (by rw [hr]; decide))]
    exact ⟨rfl, rfl⟩

/-- No assistant of a Messages request says something in a string content. -/
def NoStringAssistant (req : Obj) : Prop :=
  ∀ m ∈ objects ((arr req "messages").getD []), role lastField m = .assistant →
    ∀ s, lastField m "content" = some (.str s) → blank s

theorem noStringAssistant_iff :
    NoStringAssistant req ↔ ∀ m ∈ objects ((arr req "messages").getD []), stringAssistant m →
      (messTurn m).filter spoken = [] := by
  refine forall₂_congr fun m _ => ?_
  have hturn : ∀ s, role lastField m = .assistant →
      lastField m "content" = some (.str s) →
        ((messTurn m).filter spoken = [] ↔ blank s) := by
    intro s hr hs
    simp [messTurn, turnOf, hr, hs, ofRole, contentTexts, spoken]
  constructor
  · rintro h ⟨hr, hs⟩
    obtain ⟨s, hs⟩ := isSome_iff_exists.mp hs
    obtain ⟨content, hcontent, hstr⟩ := bind_eq_some_iff.mp hs
    obtain rfl := Json.asStr_eq_some.mp hstr
    exact (hturn s hr hcontent).mpr (h hr s hcontent)
  · intro h hr s hs
    exact (hturn s hr hs).mp (h ⟨hr, by rw [hs]; rfl⟩)

theorem respConversation_messToResp :
    respConversation (messToRespRequest codec req) =
      { instructions := (anthropicSystem req).toList
        turns := (objects ((arr req "messages").getD [])).flatMap fun m =>
          (objects (messItems codec m)).flatMap respTurn } := by
  have hitems : ∀ msgs, (objects (messMessagesToInput codec msgs)).flatMap respInstructionTexts =
      [] := by
    intro msgs
    rw [messMessagesToInput, flatMap_objects_flatMap, flatMap_eq_nil_iff]
    exact fun m _ => (messItems_texts codec m).1
  unfold messToRespRequest
  cases arr req "messages" with
  | none => cases anthropicSystem req <;> simp [respConversation, arr, str, objects]
  | some msgs =>
    have hturns := flatMap_objects_flatMap (messItems codec) respTurn (objects msgs)
    rw [← messMessagesToInput] at hturns
    cases anthropicSystem req <;>
      simp [respConversation, arr, str, getD_asArr_nilArr, hitems, hturns]

theorem messToResp_kept_iff :
    Kept (messConversation req) (respConversation (messToRespRequest codec req)) ↔
      NoStringAssistant req := by
  rw [respConversation_messToResp, noStringAssistant_iff]
  have hturns := turns_iff stringAssistant (l := objects ((arr req "messages").getD []))
    (f := messTurn) (g := fun m => (objects (messItems codec m)).flatMap respTurn)
    (fun m _ hd => by
      rw [(messItems_texts codec m).2, if_neg hd]
      exact forall₂_same_refl _)
    (fun m _ hd => by rw [(messItems_texts codec m).2, if_pos hd])
  exact ⟨fun h => hturns.mp h.turns, fun h => ⟨anthropicSystem_same req, hturns.mpr h⟩⟩

/-! ### Responses to Messages -/

/-- A part becomes a block with its text, or one that is no text. -/
theorem respPartBlock_cases (p : Obj) :
    respPartBlock p = (partText lastField respTypes p).map textBlock ∨
      partText lastField respTypes p = none ∧
        ∃ text : Option String, respPartBlock p = text.map thinkingBlock := by
  have htype : ((lastField p "type").bind asStr).any (respTypes.contains ·) = true ↔
      str p "type" = some "input_text" ∨ str p "type" = some "output_text" := by
    rw [← str]
    cases str p "type" <;> simp [respTypes]
  simp only [respPartBlock, partText, htype]
  split
  · exact .inl rfl
  split
  · exact .inr ⟨rfl, _, rfl⟩
  · exact .inl rfl

theorem partTexts_respMessageBlocks :
    partTexts lastField ["text"] (respMessageBlocks content) =
      contentTexts lastField respTypes content := by
  rcases content with _ | (_ | _ | _ | s | parts | _)
  case some.str =>
    simp [respMessageBlocks, partTexts_eq, textBlock, partText_of_type, contentTexts]
  case some.arr =>
    refine partTexts_filterMap (fun p => ?_) parts
    rcases respPartBlock_cases p with h | ⟨hnone, text, h⟩ <;> rw [h]
    · cases partText lastField respTypes p <;> simp [textBlock, partText_of_type]
    · cases text <;> simp [hnone, thinkingBlock, partText_of_type]
  all_goals rfl

/-- What an entry of the log says. -/
def entryTurns (m : String × List Json) : List Turn :=
  ((objects [message m.1 (.arr m.2)]).flatMap messTurn).filter spoken

def MessLog.turns (log : MessLog) : List Turn := log.msgs.flatMap entryTurns

/-- Blocks without a text change nothing of what is said. -/
theorem entryTurns_append (m : String × List Json)
    (h : partTexts lastField ["text"] blocks = []) :
    entryTurns (m.1, m.2 ++ blocks) = entryTurns m := by
  simp only [entryTurns, message, objects, messTurn, turnOf, filterMap_cons, asObj, flatMap_cons]
  simp [contentTexts, partTexts_append, h, role]

theorem flatMap_modify {β : Type} {f : α → α} {g : α → List β} (h : ∀ a, g (f a) = g a)
    (l : List α) (i : Nat) : (l.modify i f).flatMap g = l.flatMap g := by
  induction l generalizing i with
  | nil => simp
  | cons a l ih =>
    cases i with
    | zero => simp [h]
    | succ i => simp [ih]

theorem turns_attach (h : partTexts lastField ["text"] blocks = []) :
    (log.attach blocks).turns = log.turns := by
  simp only [MessLog.attach, MessLog.turns]
  rw [flatMap_modify fun m => entryTurns_append m h]
  split
  · rfl
  · rw [MessLog.pushAssistant, flatMap_append]
    exact append_nil _

theorem turns_messageItem :
    (log.messageItem im).turns =
      log.turns ++ (turnOf lastField respTypes im).filter spoken := by
  have htexts := partTexts_respMessageBlocks (lastField im "content")
  simp only [MessLog.messageItem, ofString_str, turnOf, ← htexts]
  generalize respMessageBlocks (lastField im "content") = blocks
  cases blocks with
  | nil => cases role lastField im <;> simp [partTexts, objects, spoken]
  | cons b blocks =>
    simp only [isEmpty_cons, Bool.false_eq_true, if_false]
    cases role lastField im with
    | user | assistant =>
      simp only [MessLog.pushUser, MessLog.pushAssistant, MessLog.turns, flatMap_append,
        flatMap_cons, flatMap_nil, append_nil]
      rfl
    | _ => exact (append_nil _).symm

def typedTurn (im : Obj) : List Turn :=
  if ofJson (lastField im "type") = .message then
    (turnOf lastField respTypes im).filter spoken
  else []

/-- One item adds what it says, if it has the type of a message. -/
theorem turns_item : (log.item codec im).turns = log.turns ++ typedTurn im := by
  unfold MessLog.item typedTurn
  cases ofJson (lastField im "type") with
  | message => exact turns_messageItem log im
  | functionCall =>
    rw [if_neg (by decide), append_nil]
    exact turns_attach log (by
      simp [partTexts_eq, toolUse, partText_of_type])
  | reasoning =>
    rw [if_neg (by decide), append_nil]
    refine turns_attach log (partTexts_silent (fun sm => ?_) _)
    cases str sm "text" <;> simp [thinkingBlock, partText_of_type]
  | functionCallOutput =>
    rw [if_neg (by decide), append_nil]
    simp only [MessLog.pushUser, MessLog.turns, flatMap_append, flatMap_cons, flatMap_nil,
      append_nil]
    rw [entryTurns, messTurn_message user_speaks]
    simp [contentTexts, partTexts_eq, toolResult, partText_of_type, spoken]
  | missing | other => exact (append_nil _).symm

theorem turns_foldl (items : List Obj) (log : MessLog) :
    (items.foldl (MessLog.item codec) log).turns = log.turns ++ items.flatMap typedTurn := by
  induction items generalizing log with
  | nil => exact (append_nil _).symm
  | cons im items ih => rw [foldl_cons, ih, turns_item, flatMap_cons, append_assoc]

/-- The message items without a type have no text. -/
def NoUntypedText (req : Obj) : Prop :=
  ∀ im ∈ objects ((arr req "input").getD []),
    ofJson (lastField im "type") = .missing →
      (respTurn im).all (·.texts.all blank)

/-- The text of an instruction item, as it is joined. -/
theorem inputItemText_same :
    SameInstructions (respInstructionTexts im)
      (if isInstruction im then inputItemText im else none).toList := by
  unfold respInstructionTexts inputItemText
  split
  · rcases lastField im "content" with _ | (_ | _ | _ | s | parts | _)
    case some.str => exact .refl [s]
    case some.arr => exact joinStrings_same _
    all_goals exact .refl []
  · exact .refl []

theorem respInstructions_same :
    SameInstructions (respConversation req).instructions (respInstructions req).toList := by
  have hitems : SameInstructions
      ((objects ((arr req "input").getD [])).flatMap respInstructionTexts)
      ((objects ((arr req "input").getD [])).filterMap fun im =>
        if isInstruction im then inputItemText im else none) := by
    rw [filterMap_eq_flatMap_toList]
    exact .flatMap fun im _ => inputItemText_same im
  have hins : SameInstructions (str req "instructions").toList
      ((str req "instructions").filter (· ≠ "")).toList := by
    cases str req "instructions" with
    | none => exact .refl []
    | some s =>
      by_cases hs : s = ""
      · subst hs
        exact .of_blank (by decide)
      · simpa [Option.filter, hs] using SameInstructions.refl [s]
  exact (hins.append hitems).trans (joinStrings_same _)

/-- The messages are one for a string input, or else those that the items are put together to. -/
theorem flatMap_respToMess (f : Obj → List α) (codec : Codec) (req : Obj) :
    (objects ((arr (respToMessRequest codec req) "messages").getD [])).flatMap f =
      ((str req "input").toList.flatMap fun s =>
        (objects [message "user" (.str s)]).flatMap f) ++
      ((objects ((arr req "input").getD [])).foldl (MessLog.item codec) {}).msgs.flatMap fun m =>
        (objects [message m.1 (.arr m.2)]).flatMap f := by
  have hmessages : ∀ (sys : Option String) (messages : Json),
      arr (sys.toList.map (fun s => ("system", Json.str s)) ++ [("messages", messages)])
        "messages" = messages.asArr := by
    intro sys messages
    cases sys <;> simp [arr]
  cases harr : arr req "input" with
  | some input =>
    have hstr : str req "input" = none := by
      obtain ⟨j, hj, hitems⟩ := bind_eq_some_iff.mp harr
      rw [str, hj, Json.asArr_eq_some.mp hitems]
      rfl
    simp only [respToMessRequest, harr, hstr, hmessages, getD_asArr_nilArr]
    rw [respInputToMessMessages, flatMap_objects, flatMap_map]
    refine flatMap_congr fun m _ => ?_
    simp [objects, message]
  | none =>
    cases hstr : str req "input" with
    | some s =>
      simp only [respToMessRequest, harr, hstr, hmessages]
      simp [objects]
    | none =>
      simp only [respToMessRequest, harr, hstr]
      cases respInstructions req <;> simp [arr, objects]

theorem messConversation_respToMess :
    (messConversation (respToMessRequest codec req)).instructions = (respInstructions req).toList ∧
      (messConversation (respToMessRequest codec req)).turns.filter spoken =
        ((str req "input").toList.map fun s => ({ speaker := .user, texts := [s] } : Turn)).filter
            spoken ++
          (objects ((arr req "input").getD [])).flatMap typedTurn := by
  have hsystem : ∀ (sys : Option String) (messages : List (String × Json)),
      lastField messages "system" = none →
        systemTexts (sys.toList.map (fun s => ("system", Json.str s)) ++ messages) =
          sys.toList := by
    intro sys messages hmessages
    unfold systemTexts
    cases sys <;> simp [hmessages]
  constructor
  · cases harr : arr req "input" with
    | some input =>
      simp only [respToMessRequest, harr]
      exact hsystem _ _ (by simp)
    | none =>
      cases hstr : str req "input" <;> simp only [respToMessRequest, harr, hstr]
      · exact hsystem _ _ rfl
      · exact hsystem _ _ (by simp)
  · rw [messConversation, filter_flatMap, flatMap_respToMess]
    refine congrArg₂ (· ++ ·) ?_ ?_
    · cases str req "input" with
      | none => rfl
      | some s =>
        simp only [toList_some, flatMap_cons, flatMap_nil, append_nil, ← filter_flatMap]
        exact congrArg _ (messTurn_message user_speaks _)
    · refine (flatMap_congr fun m _ => ?_).trans (turns_foldl codec _ {})
      exact (filter_flatMap ..).symm

theorem noUntypedText_iff :
    NoUntypedText req ↔ ∀ im ∈ objects ((arr req "input").getD []),
      ofJson (lastField im "type") = .missing →
        (respTurn im).filter spoken = [] := by
  simp [NoUntypedText, spoken]

/-- The turns of the items that are typed are kept, and with them all turns if nothing is said
without a type. -/
theorem respToMess_turns :
    (NoUntypedText req → (messConversation (respToMessRequest codec req)).turns.filter spoken =
        (respConversation req).turns.filter spoken) ∧
      (((respConversation req).turns.filter spoken).length =
        ((messConversation (respToMessRequest codec req)).turns.filter spoken).length →
          NoUntypedText req) := by
  rw [(messConversation_respToMess codec req).2, noUntypedText_iff]
  simp only [respConversation, filter_append, filter_flatMap, length_append,
    Nat.add_left_cancel_iff]
  -- an item is read as a message if it is typed as one, or not at all
  have hread : ∀ im, ofJson (lastField im "type") ≠ .missing →
      typedTurn im = (respTurn im).filter spoken := by
    intro im hne
    unfold typedTurn respTurn isMessageItem
    cases htype : ofJson (lastField im "type") with
    | missing => exact absurd htype hne
    | _ => rfl
  have hdrop : ∀ im, ofJson (lastField im "type") = .missing →
      typedTurn im = [] := by
    intro im h
    rw [typedTurn, h]
    rfl
  constructor
  · intro h
    congr 1
    refine flatMap_congr fun im him => ?_
    by_cases hmissing : ofJson (lastField im "type") = .missing
    · rw [hdrop im hmissing, h im him hmissing]
    · exact hread im hmissing
  · refine Pieces.kept_of_length_eq _ (fun im _ hk => ?_) fun im _ hk => ?_
    · by_cases hmissing : ofJson (lastField im "type") = .missing
      · rw [hdrop im hmissing, hk hmissing]
      · rw [hread im hmissing]
    · obtain ⟨hmissing, hne⟩ := Classical.not_imp.mp hk
      rw [hdrop im hmissing]
      exact length_pos_iff.mpr hne

theorem respToMess_kept_iff :
    Kept (respConversation req) (messConversation (respToMessRequest codec req)) ↔
      NoUntypedText req := by
  obtain ⟨hkeep, hlen⟩ := respToMess_turns codec req
  refine ⟨fun h => hlen h.turns.length_eq, fun h => ⟨?_, ?_⟩⟩
  · rw [(messConversation_respToMess codec req).1]
    exact respInstructions_same req
  · rw [hkeep h]
    exact forall₂_same_refl _

/-! ### Messages to Chat -/

theorem blocksOf_text (blocks : List Json) :
    blocksOf "text" (str · "text") blocks = partTexts lastField ["text"] blocks := by
  refine filterMap_congr fun b _ => ?_
  rw [partText_of_type, ← str, ← str]

theorem messUserContentToChat_text :
    (messUserContentToChat content).1 =
      joinStrings (contentTexts lastField ["text"] content) "\n" := by
  rcases content with _ | (_ | _ | _ | s | blocks | _)
  case some.arr => simp [messUserContentToChat, contentTexts, blocksOf_text]
  all_goals rfl

theorem messAssistantContentToChat_text :
    (messAssistantContentToChat codec content).1 =
      joinStrings (contentTexts lastField ["text"] content) "" := by
  rcases content with _ | (_ | _ | _ | s | blocks | _)
  case some.arr => simp [messAssistantContentToChat, contentTexts, blocksOf_text]
  all_goals rfl

/-- A turn whose texts are put together is the same turn. -/
theorem same_joined (speaker : Speaker) (texts : List String) {sep : String}
    (hsep : sep = "\n" ∨ sep = "") :
    Forall₂ Turn.Same ([{ speaker, texts }].filter spoken)
      ([{ speaker, texts := [joinStrings texts sep] }].filter spoken) := by
  have hblank : blank sep := by rcases hsep with rfl | rfl <;> decide
  have hspoken : spoken { speaker, texts := [joinStrings texts sep] } =
      spoken { speaker, texts } := by
    simp [spoken, blank_joinStrings hblank, not_all_eq_any_not]
  by_cases h : spoken { speaker, texts }
  · rw [filter_cons_of_pos h, filter_cons_of_pos (hspoken.trans h)]
    refine .cons ⟨rfl, .inr ?_⟩ .nil
    rcases hsep with rfl | rfl
    · exact .inl rfl
    · exact .inr rfl
  · rw [filter_cons_of_neg h, filter_cons_of_neg (by rw [hspoken]; exact h)]
    exact .nil

theorem chatToolResult_silent {id text : String} {m : Obj}
    (h : (chatToolResult id text).asObj = some m) :
    chatInstructions lastField m = [] ∧ messTurn m = [] := by
  cases h
  simp [chatInstructions, messTurn, turnOf, role, Role.ofString, ofRole]

theorem messUserResults_silent :
    (objects (messUserContentToChat content).2).flatMap (chatInstructions lastField) = [] ∧
      (objects (messUserContentToChat content).2).flatMap messTurn = [] := by
  rcases content with _ | (_ | _ | _ | s | blocks | _)
  case some.arr =>
    exact ⟨toolResults_silent chatToolResult _ (fun _ _ _ h => (chatToolResult_silent h).1) blocks,
      toolResults_silent chatToolResult _ (fun _ _ _ h => (chatToolResult_silent h).2) blocks⟩
  all_goals exact ⟨rfl, rfl⟩

theorem chatAssistant_texts (text : String) (calls : List Json) (reasoning : String) :
    (objects (chatAssistant text calls reasoning)).flatMap (chatInstructions lastField) = [] ∧
      ((objects (chatAssistant text calls reasoning)).flatMap messTurn).filter spoken =
        [{ speaker := .assistant, texts := [text] }].filter spoken := by
  unfold chatAssistant
  split
  · next h =>
    rw [h.1]
    exact ⟨rfl, rfl⟩
  · cases calls <;> by_cases hr : reasoning = "" <;>
      simp [hr, objects, chatInstructions, messTurn, turnOf, role, Role.ofString, ofRole,
        contentTexts]

theorem messChatMessages_texts :
    (objects (messChatMessages codec m)).flatMap (chatInstructions lastField) = [] ∧
      Forall₂ Turn.Same ((messTurn m).filter spoken)
        (((objects (messChatMessages codec m)).flatMap messTurn).filter spoken) := by
  simp only [messChatMessages, ofString_str]
  cases hr : role lastField m with
  | user =>
    obtain ⟨hi, ht⟩ := messUserResults_silent (lastField m "content")
    have hsame := same_joined .user (contentTexts lastField ["text"]
      (lastField m "content")) (.inl rfl)
    have hturn : messTurn m = [{ speaker := .user
                                 texts := contentTexts lastField ["text"]
                                   (lastField m "content") }] := by
      simp [messTurn, turnOf, hr, ofRole]
    simp only [objects_append, flatMap_append, hi, ht, hturn]
    rw [messUserContentToChat_text]
    split
    · next hempty =>
      rw [hempty] at hsame
      exact ⟨rfl, hsame⟩
    · rw [messTurn_message user_speaks]
      exact ⟨by simp [objects, message, chatInstructions, role, Role.ofString], hsame⟩
  | assistant =>
    refine ⟨(chatAssistant_texts _ _ _).1, ?_⟩
    rw [(chatAssistant_texts _ _ _).2, messAssistantContentToChat_text]
    simpa [messTurn, turnOf, hr, ofRole] using same_joined .assistant
      (contentTexts lastField ["text"] (lastField m "content")) (.inr rfl)
  | _ => exact ⟨rfl, by simp [messTurn, turnOf, hr, ofRole, objects]⟩

theorem messages_messToChat :
    (arr (messToChatRequest codec req) "messages").getD [] =
      ((anthropicSystem req).toList.map fun s => message "system" (.str s)) ++
        messMessagesToChat codec ((arr req "messages").getD []) := by
  have hmessages : ∀ messages : List Json,
      ((arr (if messages.isEmpty then [] else [("messages", Json.arr messages)]) "messages").getD
        []) = messages := by
    intro messages
    cases messages <;> simp [arr]
  exact hmessages _

theorem chatConversation_messToChat :
    chatConversation lastField (messToChatRequest codec req) =
      { instructions := (anthropicSystem req).toList
        turns := (objects ((arr req "messages").getD [])).flatMap fun m =>
          (objects (messChatMessages codec m)).flatMap messTurn } := by
  have hinstr : (objects (messMessagesToChat codec ((arr req "messages").getD []))).flatMap
      (chatInstructions lastField) = [] := by
    rw [messMessagesToChat, flatMap_objects_flatMap, flatMap_eq_nil_iff]
    exact fun m _ => (messChatMessages_texts codec m).1
  have hsystem : ∀ sys : Option String,
      (objects (sys.toList.map fun s => message "system" (.str s))).flatMap
          (chatInstructions lastField) = sys.toList ∧
        (objects (sys.toList.map fun s => message "system" (.str s))).flatMap messTurn = [] := by
    intro sys
    cases sys <;> simp [objects, message, chatInstructions, messTurn, turnOf, role,
      Role.ofString, ofRole, contentTexts]
  simp only [chatConversation, messages_messToChat, objects_append, flatMap_append, hinstr,
    (hsystem _).1, append_nil]
  rw [← messTurn, (hsystem _).2, nil_append, messMessagesToChat, flatMap_objects_flatMap]

theorem messToChat_kept :
    Kept (messConversation req)
      (chatConversation lastField (messToChatRequest codec req)) := by
  rw [chatConversation_messToChat]
  refine ⟨anthropicSystem_same req, ?_⟩
  rw [messConversation, filter_flatMap, filter_flatMap]
  exact Pieces.forall₂_flatMap fun m _ => (messChatMessages_texts codec m).2

theorem respToChat_kept_iff :
    Kept (respConversation req)
        (chatConversation lastField (respToChatRequest codec req)) ↔ NoUntypedText req := by
  have hchat := messToChat_kept codec (respToMessRequest codec req)
  obtain ⟨hkeep, hlen⟩ := respToMess_turns codec req
  constructor
  · intro h
    exact hlen (h.turns.length_eq.trans hchat.turns.length_eq.symm)
  · intro h
    refine ⟨?_, ?_⟩
    · refine SameInstructions.trans ?_ hchat.instructions
      rw [(messConversation_respToMess codec req).1]
      exact respInstructions_same req
    · rw [← hkeep h]
      exact hchat.turns

/-! ### All directions -/

section
variable {req : Obj}

theorem Unique.message (h : (Json.obj req).Unique) {key : String} {m : Obj}
    (hm : m ∈ objects ((arr req key).getD [])) : (Json.obj m).Unique := by
  obtain ⟨j, hj, hobj⟩ := mem_filterMap.mp hm
  obtain rfl := Json.asObj_eq_some.mp hobj
  cases harr : arr req key with
  | none => rw [harr] at hj; exact absurd hj not_mem_nil
  | some items =>
    rw [harr] at hj
    obtain ⟨v, hv, hitems⟩ := bind_eq_some_iff.mp harr
    obtain rfl := Json.asArr_eq_some.mp hitems
    exact (h.field hv).item hj

/-- Without repeated keys it does not matter how a field is found. -/
theorem contentTexts_getField {m : Obj} (h : (Json.obj m).Unique) (types : List String) :
    contentTexts getField types (getField m "content") =
      contentTexts lastField types (lastField m "content") := by
  have hcontent : getField m "content" = lastField m "content" := h.firstField_eq _
  rw [hcontent]
  rcases hc : lastField m "content" with _ | (_ | _ | _ | s | parts | _)
  case some.arr =>
    refine filterMap_congr fun p hp => ?_
    obtain ⟨j, hj, hobj⟩ := mem_filterMap.mp hp
    obtain rfl := Json.asObj_eq_some.mp hobj
    have hunique := (h.field hc).item hj
    simp [partText, getField, hunique.firstField_eq]
  all_goals rfl

theorem role_getField {m : Obj} (h : (Json.obj m).Unique) :
    role getField m = role lastField m := by
  simp [role, getField, h.firstField_eq]

theorem chatInstructions_getField {m : Obj} (h : (Json.obj m).Unique) :
    chatInstructions getField m = chatInstructions lastField m := by
  simp [chatInstructions, role_getField h, contentTexts_getField h]

theorem chatConversation_getField (h : (Json.obj req).Unique) :
    chatConversation getField req = chatConversation lastField req := by
  simp only [chatConversation, Conversation.mk.injEq]
  refine ⟨flatMap_congr fun m hm => chatInstructions_getField (Unique.message h hm),
    flatMap_congr fun m hm => ?_⟩
  simp [turnOf, role_getField (Unique.message h hm), contentTexts_getField (Unique.message h hm)]

theorem noDeveloperText_getField (h : (Json.obj req).Unique) :
    NoDeveloperText getField req ↔ NoDeveloperText lastField req := by
  refine forall₂_congr fun m hm => ?_
  rw [role_getField (Unique.message h hm), chatInstructions_getField (Unique.message h hm)]

end

def sourceConversation : Direction → Obj → Conversation
  | .chatToResp, req | .chatToMess, req => chatConversation lastField req
  | .messToResp, req | .autoMessagesToChat, req => messConversation req
  | .respToMess, req | .autoResponsesToChat, req => respConversation req

def targetConversation : Direction → Obj → Conversation
  | .chatToResp, out | .messToResp, out => respConversation out
  | .respToMess, out | .chatToMess, out => messConversation out
  | .autoResponsesToChat, out | .autoMessagesToChat, out => chatConversation lastField out

/-- The requests of which a direction drops no text. -/
def Speakable : Direction → Obj → Prop
  | .chatToResp, req | .chatToMess, req => NoDeveloperText lastField req
  | .messToResp, req => NoStringAssistant req
  | .respToMess, req | .autoResponsesToChat, req => NoUntypedText req
  | .autoMessagesToChat, _ => True

/-- A request of texts is converted, and all that it says is kept, if and only if its protocol's
form that the direction drops is not used. -/
theorem convertRequest_texts_kept_iff (codec : Codec) (dir : Direction) (req : Obj)
    (hunique : (Json.obj req).Unique) (himage : NoImage req) :
    ∃ out, convertRequest codec dir req = some out ∧
      (Kept (sourceConversation dir req) (targetConversation dir out) ↔ Speakable dir req) := by
  cases dir with
  | chatToResp =>
    refine ⟨_, rfl, ?_⟩
    have h := chatToResp_kept_iff req
    rw [chatConversation_getField hunique, noDeveloperText_getField hunique] at h
    exact h
  | messToResp => exact ⟨_, rfl, messToResp_kept_iff codec req⟩
  | respToMess => exact ⟨_, rfl, respToMess_kept_iff codec req⟩
  | chatToMess =>
    obtain ⟨out, hout⟩ := isSome_iff_exists.mp (isSome_chatToMess codec himage)
    exact ⟨out, hout, chatToMess_kept_iff codec hout⟩
  | autoResponsesToChat => exact ⟨_, rfl, respToChat_kept_iff codec req⟩
  | autoMessagesToChat => exact ⟨_, rfl, iff_of_true (messToChat_kept codec req) trivial⟩

/-- No JSON text is understood, and no image. -/
def bareCodec : Codec where
  parse _ := none
  print _ := ""
  round := id
  imageSource _ := none

/-- A user says hello, and an assistant answers in a block. -/
def greeting : Obj :=
  [("messages", .arr [.obj [("role", .str "user"), ("content", .str "hello")],
    .obj [("role", .str "assistant"), ("content", .arr [textBlock "hi"])]])]

theorem convertRequest_keeps_greeting :
    ∃ out, convertRequest bareCodec .messToResp greeting = some out ∧
      Kept (sourceConversation .messToResp greeting) (targetConversation .messToResp out) := by
  have hunique : (Json.obj greeting).Unique := by simp [greeting, textBlock]
  have himage : NoImage greeting := by
    simp [NoImage, greeting, arr, objects, textBlock, str]
  obtain ⟨out, hout, hkept⟩ :=
    convertRequest_texts_kept_iff bareCodec .messToResp greeting hunique himage
  refine ⟨out, hout, hkept.mpr ?_⟩
  simp [Speakable, NoStringAssistant, greeting, arr, objects, role, Role.ofString]

/-- A developer's instruction, an assistant's string and an item without a type are lost. -/
theorem convertRequest_loses_texts :
    ¬ Kept
        (sourceConversation .chatToResp [("messages",
          .arr [.obj [("role", .str "developer"), ("content", .str "Answer in French.")]])])
        (targetConversation .chatToResp (chatToRespRequest [("messages",
          .arr [.obj [("role", .str "developer"), ("content", .str "Answer in French.")]])])) ∧
      ¬ Kept
        (sourceConversation .messToResp [("messages",
          .arr [.obj [("role", .str "assistant"), ("content", .str "Bonjour.")]])])
        (targetConversation .messToResp (messToRespRequest bareCodec [("messages",
          .arr [.obj [("role", .str "assistant"), ("content", .str "Bonjour.")]])])) ∧
      ¬ Kept
        (sourceConversation .respToMess [("input",
          .arr [.obj [("role", .str "user"), ("content", .str "Hello.")]])])
        (targetConversation .respToMess (respToMessRequest bareCodec [("input",
          .arr [.obj [("role", .str "user"), ("content", .str "Hello.")]])])) :=
  ⟨fun h => absurd h.instructions.lines_eq (by decide),
    fun h => absurd h.turns.length_eq (by decide),
    fun h => absurd h.turns.length_eq (by decide)⟩

end C4Gateway.Protoconv
