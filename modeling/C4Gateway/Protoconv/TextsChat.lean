import C4Gateway.Protoconv.Texts

/-! The texts of a Chat request, converted to the Responses and to the Messages protocol.  Developer
messages are dropped, and everything else that is said arrives. -/

namespace C4Gateway.Protoconv

open Speaker (ofRole)
open Option
open Role (ofString)
open Turn (spoken)
open Json (lastField asStr asObj)

open List

variable {β α : Type} {m p : Obj} {speaker : Speaker} {name textType : String}
  {blocks out : List Json} (f : α → List Json) (g : Obj → List β) (req : Obj)
  (field : Obj → String → Option Json) (l : List α) (types : List String) (parts : List Json)
  (content : Option Json) (codec : Codec)

theorem objects_flatMap :
    objects (l.flatMap f) = l.flatMap fun a => objects (f a) := filterMap_flatMap

theorem flatMap_objects_flatMap :
    (objects (l.flatMap f)).flatMap g = l.flatMap fun a => (objects (f a)).flatMap g := by
  rw [objects_flatMap, flatMap_assoc]

theorem partTexts_eq :
    partTexts field types parts = parts.filterMap fun j => j.asObj.bind (partText field types) := by
  rw [partTexts, objects, filterMap_filterMap]

/-- The texts of parts that are made one by one. -/
theorem partTexts_filterMap {field : Obj → String → Option Json} {types : List String}
    {make : Obj → Option Json} {text : Obj → Option String}
    (h : ∀ p, ((make p).bind asObj).bind (partText field types) = text p)
    (parts : List Json) :
    partTexts field types ((objects parts).filterMap make) = (objects parts).filterMap text := by
  simp only [partTexts]
  rw [objects, filterMap_filterMap, filterMap_filterMap]
  exact filterMap_congr fun p _ => by rw [← h p, bind_assoc]

/-- Turns that are kept unless they are dropped: they are the same if what is dropped has no text.
-/
theorem turns_iff {α : Type} {f g : α → List Turn} (dropped : α → Prop) {l : List α}
    (hkept : ∀ a ∈ l, ¬ dropped a →
      Forall₂ Turn.Same ((f a).filter spoken) ((g a).filter spoken))
    (hlost : ∀ a ∈ l, dropped a → (g a).filter spoken = []) :
    Forall₂ Turn.Same ((l.flatMap f).filter spoken) ((l.flatMap g).filter spoken) ↔
      ∀ a ∈ l, dropped a → (f a).filter spoken = [] := by
  rw [filter_flatMap, filter_flatMap]
  refine Pieces.forall₂_flatMap_iff (fun a => dropped a → (f a).filter spoken = []) ?_ ?_
  · intro a ha hk
    by_cases hd : dropped a
    · rw [hk hd, hlost a ha hd]
      exact .nil
    · exact hkept a ha hd
  · intro a ha hk
    obtain ⟨hd, hne⟩ := Classical.not_imp.mp hk
    rw [hlost a ha hd]
    exact length_pos_iff.mpr hne

theorem Turn.same_refl (t : Turn) : t.Same t := ⟨rfl, .inl rfl⟩

theorem forall₂_same_refl (turns : List Turn) : Forall₂ Turn.Same turns turns :=
  forall₂_same.mpr fun t _ => t.same_refl

/-! ### Chat to Responses -/

theorem partText_textPart (h : textType ∈ respTypes) (text : String) :
    (textPart textType text).asObj.bind (partText lastField respTypes) = some text := by
  simp [textPart, partText, h]

theorem partTexts_appendContentParts (h : textType ∈ respTypes) (content : Option Json) :
    partTexts lastField respTypes (appendContentParts content textType) =
      contentTexts getField ["text"] content := by
  rcases content with _ | (_ | _ | _ | s | parts | _) <;> try rfl
  · simp [appendContentParts, partTexts_eq, contentTexts, partText_textPart h]
  · refine partTexts_filterMap (fun p => ?_) parts
    by_cases ht : getStr p "type" = some "text"
    · have htype : ((getField p "type").bind asStr).any (["text"].contains ·) = true := by
        rw [← getStr, ht]; rfl
      rw [if_pos ht, partText, if_pos htype, ← getStr]
      cases getStr p "text" with
      | none => rfl
      | some text => exact partText_textPart h text
    · have htype : ¬ ((getField p "type").bind asStr).any (["text"].contains ·) = true := by
        rw [← getStr]
        cases hs : getStr p "type" <;> simp_all
      rw [if_neg ht, partText]
      split
      · cases imageURLRaw p with
        | none => rfl
        | some url => simp [partText]
      · rfl

theorem contentTextRaw_eq :
    contentTextRaw content =
      let texts := contentTexts getField ["text"] content
      if texts.isEmpty then none else some (joinStrings texts "\n", texts.any (· ≠ "")) := by
  rcases content with _ | (_ | _ | _ | s | parts | _) <;> try rfl
  simp [contentTextRaw, contentTexts]

/-- An item without a role that is no message says nothing. -/
theorem item_silent {im : Obj} (hrole : lastField im "role" = none)
    (htype : isMessageItem im = false) : respInstructionTexts im = [] ∧ respTurn im = [] := by
  simp [respInstructionTexts, isInstruction, respTurn, htype, ofString, str, hrole]

theorem message_texts (hname : ofRole (ofString (some name)) = some speaker)
    {im : Obj} {parts : List Json} (hrole : lastField im "role" = some (.str name))
    (htype : lastField im "type" = some (.str "message"))
    (hcontent : lastField im "content" = some (.arr parts)) :
    (objects (if parts.isEmpty then [] else [.obj im])).flatMap respInstructionTexts = [] ∧
      ((objects (if parts.isEmpty then [] else [.obj im])).flatMap respTurn).filter spoken =
        [{ speaker, texts := partTexts lastField respTypes parts }].filter spoken := by
  cases parts with
  | nil => exact ⟨rfl, rfl⟩
  | cons p ps =>
    have hname' : ofString (some name) ≠ .system ∧ ofString (some name) ≠ .developer := by
      constructor <;> intro h <;> rw [h] at hname <;> exact absurd hname (by simp [ofRole])
    simp [objects, respInstructionTexts, isInstruction, respTurn, isMessageItem,
      ItemType.ofJson, str, turnOf, role, hname, hname', hrole, htype, hcontent, contentTexts]

/-- Calls and outputs say nothing. -/
theorem chatToolCallItem_silent {tc : Json} {im : Obj}
    (h : (chatToolCallItem tc).bind asObj = some im) :
    respInstructionTexts im = [] ∧ respTurn im = [] := by
  obtain ⟨item, hitem, him⟩ := bind_eq_some_iff.mp h
  obtain ⟨tc, -, hitem⟩ := bind_eq_some_iff.mp hitem
  obtain ⟨fn, -, rfl⟩ := map_eq_some_iff.mp hitem
  obtain rfl := Option.some.inj him
  exact item_silent (by simp) (by simp [isMessageItem, ItemType.ofJson])

theorem objects_chatToolCalls {read : Obj → List β}
    (h : ∀ tc im, (chatToolCallItem tc).bind asObj = some im → read im = [])
    (calls : List Json) : (objects (calls.filterMap chatToolCallItem)).flatMap read = [] := by
  rw [objects, filterMap_filterMap, flatMap_eq_nil_iff]
  intro im him
  obtain ⟨tc, -, htc⟩ := mem_filterMap.mp him
  exact h tc im htc

theorem chatOutputItems_silent (callID : Option String) (content : Option Json) :
    (objects (chatOutputItems callID content)).flatMap respInstructionTexts = [] ∧
      (objects (chatOutputItems callID content)).flatMap respTurn = [] := by
  unfold chatOutputItems
  cases contentTextRaw content with
  | none => exact ⟨rfl, rfl⟩
  | some t =>
    simp [objects, respInstructionTexts, isInstruction, respTurn, isMessageItem,
      ItemType.ofJson, ofString, str]

theorem chatSystemItems_texts :
    (objects (chatSystemItems content)).flatMap respInstructionTexts =
        ((contentTextRaw content).filter (·.2)).toList.map (·.1) ∧
      (objects (chatSystemItems content)).flatMap respTurn = [] := by
  unfold chatSystemItems
  cases (contentTextRaw content).filter (·.2) with
  | none => exact ⟨rfl, rfl⟩
  | some t =>
    simp [objects, respInstructionTexts, isInstruction, respTurn, ofString, str,
      textPart, turnOf, role, ofRole]

theorem chatMessageItems_texts (speaker : Speaker)
    (hname : ofRole (ofString (some name)) = some speaker)
    (htype : textType ∈ respTypes) (content : Option Json) :
    (objects (chatMessageItems name textType content)).flatMap respInstructionTexts = [] ∧
      ((objects (chatMessageItems name textType content)).flatMap respTurn).filter spoken =
        [{ speaker, texts := contentTexts getField ["text"] content }].filter spoken := by
  rw [← partTexts_appendContentParts htype]
  exact message_texts hname (by simp) (by simp) (by simp)

/-- The text of a system message, left out if there is nothing in it. -/
def systemText (content : Option Json) : List String :=
  ((contentTextRaw content).filter (·.2)).toList.map (·.1)

theorem systemText_same :
    SameInstructions (contentTexts getField ["text"] content) (systemText content) := by
  rw [systemText, contentTextRaw_eq]
  generalize contentTexts getField ["text"] content = texts
  by_cases hne : texts = []
  · subst hne
    exact .refl []
  · have hempty : texts.isEmpty = false := by simpa using hne
    by_cases hany : texts.any (· ≠ "") = true
    · simp only [hempty, hany]
      exact .joined hne
    · have hblank : texts.all blank := by
        refine all_eq_true.mpr fun t ht => ?_
        have : t = "" := by
          by_contra hcon
          exact hany (any_eq_true.mpr ⟨t, ht, by simpa using hcon⟩)
        rw [this]
        rfl
      rw [Bool.not_eq_true] at hany
      simp only [hempty, hany]
      exact .of_blank hblank

theorem chatInputItems_texts (m : Obj) :
    (objects (chatInputItems m)).flatMap respInstructionTexts =
        (if role getField m = .system then systemText (getField m "content") else []) ∧
      ((objects (chatInputItems m)).flatMap respTurn).filter spoken =
        (turnOf getField ["text"] m).filter spoken := by
  simp only [chatInputItems, ofString_getStr]
  cases hr : role getField m with
  | system =>
    rw [(chatSystemItems_texts _).2]
    exact ⟨(chatSystemItems_texts _).1, by simp [turnOf, hr, ofRole]⟩
  | user =>
    obtain ⟨hi, ht⟩ := chatMessageItems_texts .user user_speaks
      (by decide : "input_text" ∈ respTypes) (getField m "content")
    exact ⟨hi, by simpa [turnOf, hr, ofRole] using ht⟩
  | assistant =>
    obtain ⟨hi, ht⟩ := chatMessageItems_texts .assistant assistant_speaks
      (by decide : "output_text" ∈ respTypes) (getField m "content")
    have hcalls := objects_chatToolCalls fun _ _ h => (chatToolCallItem_silent h).1
    have hcalls' := objects_chatToolCalls fun _ _ h => (chatToolCallItem_silent h).2
    rw [objects, filterMap_append, ← objects, ← objects, flatMap_append, flatMap_append, hcalls,
      hcalls', append_nil]
    exact ⟨hi, by simpa [turnOf, hr, ofRole] using ht⟩
  | tool | function =>
    obtain ⟨hi, ht⟩ := chatOutputItems_silent (getStr m _) (getField m "content")
    exact ⟨hi, by rw [ht]; simp [turnOf, hr, ofRole]⟩
  | developer | other => exact ⟨rfl, by simp [turnOf, hr, ofRole, objects]⟩

/-- The developer messages of a Chat request have no text. -/
def NoDeveloperText (field : Obj → String → Option Json) (req : Obj) : Prop :=
  ∀ m ∈ objects ((arr req "messages").getD []), role field m = .developer →
    (chatInstructions field m).all blank

theorem respConversation_chatToResp :
    respConversation (chatToRespRequest req) =
      let msgs := objects ((arr req "messages").getD [])
      { instructions := msgs.flatMap fun m =>
          (objects (chatInputItems m)).flatMap respInstructionTexts
        turns := msgs.flatMap fun m => (objects (chatInputItems m)).flatMap respTurn } := by
  unfold chatToRespRequest
  cases arr req "messages" with
  | none => rfl
  | some msgs =>
    simp [respConversation, arr, str, appendChatInputItems, flatMap_objects_flatMap]

theorem chatToResp_kept_iff :
    Kept (chatConversation getField req) (respConversation (chatToRespRequest req)) ↔
      NoDeveloperText getField req := by
  rw [respConversation_chatToResp]
  have hinstr : SameInstructions (chatConversation getField req).instructions
      ((objects ((arr req "messages").getD [])).flatMap fun m =>
        (objects (chatInputItems m)).flatMap respInstructionTexts) ↔
      NoDeveloperText getField req := by
    refine sameInstructions_iff (role getField · = .developer) (fun m _ hd => ?_)
      (fun m _ hd => ?_) (.refl _)
    · rw [(chatInputItems_texts m).1, chatInstructions]
      simp only [hd, or_false]
      split
      · exact systemText_same _
      · exact .refl []
    · rw [(chatInputItems_texts m).1, hd]
      rfl
  refine ⟨fun h => hinstr.mp h.instructions, fun h => ⟨hinstr.mpr h, ?_⟩⟩
  simp only [chatConversation, filter_flatMap, (chatInputItems_texts _).2]
  exact forall₂_same_refl _

/-! ### Chat to Messages -/

theorem flatMap_objects (l : List Json) :
    (objects l).flatMap g = l.flatMap fun j => j.asObj.toList.flatMap g := by
  induction l with
  | nil => rfl
  | cons j l ih =>
    rw [flatMap_cons, ← ih, objects, filterMap_cons]
    cases j.asObj <;> simp [objects]

theorem partText_of_type {field : Obj → String → Option Json} {type : String} :
    partText field [type] p =
      if (field p "type").bind asStr = some type then (field p "text").bind asStr
      else none := by
  unfold partText
  cases (field p "type").bind asStr <;> simp

/-- A part becomes a block with its text, or blocks that are no text. -/
theorem chatPartBlocks_cases (h : chatPartBlocks codec p = some blocks) :
    blocks = (partText lastField ["text"] p).toList.map textBlock ∨
      partText lastField ["text"] p = none ∧ ((∃ text, blocks = [thinkingBlock text]) ∨
        (∃ source, blocks = [.obj [("type", .str "image"), ("source", source)]]) ∨
        blocks = []) := by
  rw [partText_of_type, ← str]
  simp only [chatPartBlocks] at h
  split at h
  · next htext =>
    rw [if_pos htext]
    exact .inl (Option.some.inj h).symm
  next htext =>
  refine .inr ⟨if_neg htext, ?_⟩
  split at h
  · cases h
    cases str p "text" with
    | none => exact .inr (.inr rfl)
    | some text => exact .inl ⟨text, rfl⟩
  split at h
  · obtain ⟨block, hblock, rfl⟩ := map_eq_some_iff.mp h
    obtain ⟨source, -, rfl⟩ := map_eq_some_iff.mp hblock
    exact .inr (.inl ⟨source, rfl⟩)
  · exact .inr (.inr (Option.some.inj h).symm)

theorem chatPartBlocks_texts (h : chatPartBlocks codec p = some blocks) :
    (blocks.flatMap fun j => (j.asObj.bind (partText lastField ["text"])).toList) =
      (partText lastField ["text"] p).toList := by
  obtain rfl | ⟨hnone, ⟨text, rfl⟩ | ⟨source, rfl⟩ | rfl⟩ := chatPartBlocks_cases codec h
  · cases partText lastField ["text"] p <;> simp [textBlock, partText_of_type]
  all_goals simp [hnone, thinkingBlock, partText_of_type]

theorem chatPartsToMessBlocks_texts {parts : List Json}
    (h : chatPartsToMessBlocks codec (some (.arr parts)) = some blocks) :
    partTexts lastField ["text"] blocks = partTexts lastField ["text"] parts := by
  obtain ⟨pieces, hpieces, rfl⟩ := map_eq_some_iff.mp h
  rw [partTexts_eq, partTexts, filterMap_eq_flatMap_toList, filterMap_eq_flatMap_toList]
  exact Pieces.flatMap_of_mapM hpieces fun p _ blocks hp => chatPartBlocks_texts codec hp

/-- What a message of the Messages protocol says. -/
def messTurn : Obj → List Turn := turnOf lastField ["text"]

theorem messTurn_message (hname : ofRole (ofString (some name)) = some speaker)
    (content : Json) :
    (objects [message name content]).flatMap messTurn =
      [{ speaker, texts := contentTexts lastField ["text"] (some content) }] := by
  simp [objects, message, messTurn, turnOf, role, hname]

theorem partTexts_append (parts parts' : List Json) :
    partTexts field types (parts ++ parts') =
      partTexts field types parts ++ partTexts field types parts' := by
  simp [partTexts_eq]

/-- Blocks that are made by one function and never have a text. -/
theorem partTexts_silent {make : α → Option Json}
    (h : ∀ a, (make a).bind (fun j => j.asObj.bind (partText lastField ["text"])) = none)
    (l : List α) : partTexts lastField ["text"] (l.filterMap make) = [] := by
  rw [partTexts_eq, filterMap_filterMap, filterMap_eq_nil_iff]
  exact fun a _ => h a

theorem chatToolUse_silent (tc : Json) :
    ((chatToolUse codec tc).bind fun j => j.asObj.bind (partText lastField ["text"])) =
      none := by
  unfold chatToolUse
  cases tc.asObj with
  | none => rfl
  | some tc =>
    cases hfn : objField tc "function" with
    | none => simp [hfn]
    | some fn => simp [toolUse, partText_of_type]

theorem messTurn_blocks (hname : ofRole (ofString (some name)) = some speaker)
    (blocks : List Json) :
    ((objects (if blocks.isEmpty then [] else [message name (.arr blocks)])).flatMap
        messTurn).filter spoken =
      [{ speaker, texts := partTexts lastField ["text"] blocks }].filter spoken := by
  cases blocks with
  | nil => rfl
  | cons b blocks =>
    simp only [isEmpty_cons, Bool.false_eq_true, if_false]
    rw [messTurn_message hname]
    rfl

/-- A string content has no blocks, and its own text. -/
theorem contentTexts_eq {content : Option Json}
    (h : chatPartsToMessBlocks codec content = some blocks) :
    contentTexts lastField ["text"] content =
      partTexts lastField ["text"] blocks ++ (content.bind asStr).toList := by
  rcases content with _ | (_ | _ | _ | s | parts | _)
  case some.arr => simp [chatPartsToMessBlocks_texts codec h, contentTexts]
  all_goals
    cases h
    rfl

theorem chatUserMessage_texts {content : Option Json}
    (h : chatUserMessage codec content = some out) :
    ((objects out).flatMap messTurn).filter spoken =
      [{ speaker := .user, texts := contentTexts lastField ["text"] content }].filter
        spoken := by
  unfold chatUserMessage at h
  split at h
  · cases h
    rw [messTurn_message user_speaks]
  · next hstr =>
    obtain ⟨blocks, hblocks, rfl⟩ := map_eq_some_iff.mp h
    have hnone : content.bind asStr = none := by
      rcases content with _ | (_ | _ | _ | s | parts | _)
      case some.str => exact absurd rfl (hstr s)
      all_goals rfl
    rw [contentTexts_eq codec hblocks, hnone, messTurn_blocks user_speaks]
    simp

theorem chatAssistantMessage_texts (h : chatAssistantMessage codec m = some out) :
    ((objects out).flatMap messTurn).filter spoken =
      [{ speaker := .assistant
         texts := contentTexts lastField ["text"] (lastField m "content") }].filter
        spoken := by
  obtain ⟨parts, hparts, rfl⟩ := map_eq_some_iff.mp h
  have hthinking : ∀ text : Option String,
      partTexts lastField ["text"] (text.toList.map thinkingBlock) = [] := by
    intro text
    cases text <;> simp [partTexts_eq, thinkingBlock, partText_of_type]
  have htext : ∀ text : Option String,
      partTexts lastField ["text"] (text.toList.map textBlock) = text.toList := by
    intro text
    cases text <;> simp [partTexts_eq, textBlock, partText_of_type]
  rw [messTurn_blocks assistant_speaks, partTexts_append, partTexts_append, partTexts_append,
    partTexts_silent (chatToolUse_silent codec), hthinking, htext, append_nil,
    contentTexts_eq codec hparts]
  -- an empty string makes no block, and is no text
  cases hs : (lastField m "content").bind asStr with
  | none => rfl
  | some s =>
    by_cases hempty : s = ""
    · obtain ⟨content, hcontent, hstr⟩ := bind_eq_some_iff.mp hs
      obtain rfl := Json.asStr_eq_some.mp hstr
      rw [hcontent] at hparts
      obtain rfl := Option.some.inj hparts
      subst hempty
      rfl
    · simp [hempty, Option.filter]

theorem chatMessage_texts (h : chatMessage codec m = some out) :
    ((objects out).flatMap messTurn).filter spoken = (messTurn m).filter spoken := by
  have hresult : ∀ id content, (objects (chatResultMessage id content)).flatMap messTurn =
      (contentText content).toList.map fun _ => { speaker := .user, texts := [] } := by
    intro id content
    unfold chatResultMessage
    cases contentText content with
    | none => rfl
    | some t =>
      simp only [toList_some, map_cons, map_nil]
      rw [messTurn_message user_speaks]
      simp [contentTexts, partTexts_eq, toolResult, partText_of_type]
  simp only [chatMessage, ofString_str] at h
  revert h
  rw [messTurn, turnOf, ← messTurn]
  cases role lastField m with
  | user => exact chatUserMessage_texts codec
  | assistant => exact chatAssistantMessage_texts codec
  | tool | function =>
    rintro ⟨⟩
    rw [hresult]
    cases contentText (lastField m "content") <;> rfl
  | system | developer | other =>
    rintro ⟨⟩
    rfl

theorem joinedText_eq :
    joinedText content =
      let texts := contentTexts lastField ["text"] content
      if texts.isEmpty then none else some (joinStrings texts "\n") := by
  rcases content with _ | (_ | _ | _ | s | parts | _) <;> rfl

/-- Texts that are joined if there are any. -/
theorem joinStrings_same (texts : List String) :
    SameInstructions texts
      (if texts.isEmpty then none else some (joinStrings texts "\n")).toList := by
  cases texts with
  | nil => exact .refl []
  | cons t texts => exact .joined (cons_ne_nil t texts)

def chatSystemText (m : Obj) : List String :=
  if role lastField m = .system then (contentText (lastField m "content")).toList else []

theorem chatSystem_same :
    SameInstructions ((objects ((arr req "messages").getD [])).flatMap chatSystemText)
      (chatSystem req).toList := by
  unfold chatSystem
  cases arr req "messages" with
  | none => exact .refl []
  | some msgs =>
    have hparts : (objects msgs).flatMap chatSystemText = (objects msgs).filterMap fun m =>
        if ofString (str m "role") = .system then contentText (lastField m "content")
        else none := by
      rw [filterMap_eq_flatMap_toList]
      refine flatMap_congr fun m _ => ?_
      rw [chatSystemText, role, ← str]
      split <;> rfl
    rw [getD_some, hparts]
    exact joinStrings_same _

theorem getD_asArr_nilArr (items : List Json) : (nilArr items).asArr.getD [] = items := by
  cases items <;> rfl

@[simp]
theorem asStr_nilArr (items : List Json) : (nilArr items).asStr = none := by cases items <;> rfl

variable {req out : Obj}

theorem flatMap_chatToMess {f g : Obj → List α} (h : chatToMessRequest codec req = some out)
    (hmessage : ∀ m out, chatMessage codec m = some out → (objects out).flatMap f = g m) :
    (objects ((arr out "messages").getD [])).flatMap f =
      (objects ((arr req "messages").getD [])).flatMap g := by
  unfold chatToMessRequest at h
  cases hmsgs : arr req "messages" with
  | none =>
    simp only [hmsgs] at h
    cases h
    cases chatSystem req <;> simp [arr, objects]
  | some msgs =>
    simp only [hmsgs] at h
    obtain ⟨items, hitems, rfl⟩ := map_eq_some_iff.mp h
    obtain ⟨pieces, hpieces, rfl⟩ := map_eq_some_iff.mp hitems
    have harr : ((arr ((chatSystem req).toList.map (fun s => ("system", Json.str s)) ++
        [("messages", nilArr pieces.flatten)]) "messages").getD []) = pieces.flatten := by
      cases chatSystem req <;> simp [arr, getD_asArr_nilArr]
    rw [harr, flatMap_objects]
    refine Pieces.flatMap_of_mapM hpieces fun m _ out hm => ?_
    rw [← flatMap_objects]
    exact hmessage m out hm

theorem messConversation_chatToMess (h : chatToMessRequest codec req = some out) :
    (messConversation out).instructions = (chatSystem req).toList ∧
      (messConversation out).turns.filter spoken =
        (chatConversation lastField req).turns.filter spoken := by
  constructor
  · unfold chatToMessRequest at h
    split at h
    · obtain ⟨items, -, rfl⟩ := map_eq_some_iff.mp h
      cases chatSystem req <;> simp [messConversation, systemTexts]
    · cases h
      cases chatSystem req <;> simp [messConversation, systemTexts]
  · simp only [messConversation, chatConversation, filter_flatMap]
    refine flatMap_chatToMess codec h fun m out hm => ?_
    rw [← filter_flatMap]
    exact chatMessage_texts codec hm

theorem chatToMess_kept_iff (h : chatToMessRequest codec req = some out) :
    Kept (chatConversation lastField req) (messConversation out) ↔
      NoDeveloperText lastField req := by
  obtain ⟨hsystem, hturns⟩ := messConversation_chatToMess codec h
  have hinstr : SameInstructions (chatConversation lastField req).instructions
      (chatSystem req).toList ↔ NoDeveloperText lastField req := by
    refine sameInstructions_iff (role lastField · = .developer) (fun m _ hd => ?_)
      (fun m _ hd => ?_) (chatSystem_same req)
    · rw [chatInstructions, chatSystemText]
      simp only [hd, or_false]
      split
      · rw [contentText, joinedText_eq]
        exact joinStrings_same _
      · exact .refl []
    · rw [chatSystemText, hd]
      rfl
  rw [kept_iff, hsystem, hturns, hinstr]
  exact and_iff_left (forall₂_same_refl _)

/-- No part of a message is an image. -/
def NoImage (req : Obj) : Prop :=
  ∀ m ∈ objects ((arr req "messages").getD []), ∀ parts,
    lastField m "content" = some (.arr parts) →
      ∀ p ∈ objects parts, str p "type" ≠ some "image_url"

theorem isSome_chatToMess {req : Obj} (h : NoImage req) : (chatToMessRequest codec req).isSome := by
  have hparts : ∀ m ∈ objects ((arr req "messages").getD []),
      (chatPartsToMessBlocks codec (lastField m "content")).isSome := by
    intro m hm
    unfold chatPartsToMessBlocks
    split
    · next parts hparts =>
      rw [isSome_map]
      refine Pieces.isSome_mapM fun p hp => ?_
      simp only [chatPartBlocks, h m hm parts hparts p hp]
      split
      · rfl
      · split <;> rfl
    · rfl
  unfold chatToMessRequest
  cases hmsgs : arr req "messages" with
  | none => rfl
  | some msgs =>
    rw [hmsgs] at hparts
    rw [isSome_map, chatMessagesToMess, isSome_map]
    refine Pieces.isSome_mapM fun m hm => ?_
    simp only [chatMessage]
    cases ofString (str m "role") with
    | user =>
      simp only [chatUserMessage]
      split
      · rfl
      · rw [isSome_map]
        exact hparts m hm
    | assistant =>
      simp only [chatAssistantMessage, isSome_map]
      exact hparts m hm
    | _ => rfl

end C4Gateway.Protoconv
