import C4Gateway.Lib.Pieces
import C4Gateway.Protoconv.Request

/-! What a request says: its instructions, and the turns of the user and of the assistant with their
texts.  Each protocol has its own reading, and a conversion keeps a conversation if the readings of
the two requests agree. -/

namespace C4Gateway.Protoconv

open List

inductive Speaker where
  | user
  | assistant
  deriving DecidableEq, Repr

structure Turn where
  speaker : Speaker
  texts : List String
  deriving DecidableEq, Repr

/-- A request as the texts that it says, and who says them. -/
structure Conversation where
  instructions : List String
  turns : List Turn
  deriving DecidableEq, Repr

def blank (s : String) : Bool := Text.blank s.toList

def lines (texts : List String) : List (List Char) := texts.flatMap (Text.lines ·.toList)

/-- A turn with a text that is more than line breaks. -/
def Turn.spoken (t : Turn) : Bool := t.texts.any (! blank ·)

/-- The same texts in the same order, one by one or put together. -/
def SameText (texts texts' : List String) : Prop :=
  texts' = texts ∨ texts' = [joinStrings texts "\n"] ∨ texts' = [joinStrings texts ""]

def Turn.Same (t t' : Turn) : Prop := t.speaker = t'.speaker ∧ SameText t.texts t'.texts

/-- Every instruction occurs in one of the others, and line by line they are the same. -/
structure SameInstructions (texts texts' : List String) : Prop where
  occurs : ∀ t ∈ texts, ¬ blank t → ∃ t' ∈ texts', t.toList <:+: t'.toList
  lines_eq : lines texts = lines texts'

/-- Nothing that is said is lost, moved or given to another speaker. -/
@[mk_iff]
structure Kept (c c' : Conversation) : Prop where
  instructions : SameInstructions c.instructions c'.instructions
  turns : Forall₂ Turn.Same (c.turns.filter Turn.spoken) (c'.turns.filter Turn.spoken)

/-! ### Readings -/

def Speaker.ofRole : Role → Option Speaker
  | .user => some .user
  | .assistant => some .assistant
  | _ => none

section
variable (field : Obj → String → Option Json)

/-- The texts of a content: a string, or parts of the types that carry text. -/
def contentTexts (types : List String) : Option Json → List String
  | some (.str s) => [s]
  | some (.arr parts) => partTexts field types parts
  | _ => []

def role (m : Obj) : Role := Role.ofString ((field m "role").bind Json.asStr)

def turnOf (types : List String) (m : Obj) : List Turn :=
  (Speaker.ofRole (role field m)).toList.map fun speaker =>
    { speaker, texts := contentTexts field types (field m "content") }

/-- A message of the Chat protocol that instructs. -/
def chatInstructions (m : Obj) : List String :=
  if role field m = .system ∨ role field m = .developer then
    contentTexts field ["text"] (field m "content")
  else []

def chatConversation (req : Obj) : Conversation :=
  let msgs := objects ((arr req "messages").getD [])
  { instructions := msgs.flatMap (chatInstructions field)
    turns := msgs.flatMap (turnOf field ["text"]) }

end

theorem ofString_str (m : Obj) : Role.ofString (str m "role") = role Json.lastField m := rfl

theorem ofString_getStr (m : Obj) : Role.ofString (getStr m "role") = role getField m := rfl

theorem user_speaks : Speaker.ofRole (Role.ofString (some "user")) = some .user := by decide

theorem assistant_speaks : Speaker.ofRole (Role.ofString (some "assistant")) = some .assistant := by
  decide

/-- The system texts of a Messages request: a string, or strings and blocks with a text. -/
def systemTexts (req : Obj) : List String :=
  match Json.lastField req "system" with
  | some (.str s) => [s]
  | some (.arr parts) => parts.filterMap systemPartText
  | _ => []

def messConversation (req : Obj) : Conversation where
  instructions := systemTexts req
  turns := (objects ((arr req "messages").getD [])).flatMap (turnOf Json.lastField ["text"])

/-- A message item says so in its type, or has none. -/
def isMessageItem (im : Obj) : Bool :=
  match ItemType.ofJson (Json.lastField im "type") with
  | .message | .missing => true
  | _ => false

def respTypes : List String := ["input_text", "output_text"]

def respInstructionTexts (im : Obj) : List String :=
  if isInstruction im then
    match Json.lastField im "content" with
    | some (.str s) => [s]
    | some (.arr parts) => (objects parts).filterMap (str · "text")
    | _ => []
  else []

def respTurn (im : Obj) : List Turn :=
  if isMessageItem im then turnOf Json.lastField respTypes im else []

def respConversation (req : Obj) : Conversation :=
  let items := objects ((arr req "input").getD [])
  { instructions := (str req "instructions").toList ++ items.flatMap respInstructionTexts
    turns := ((str req "input").toList.map fun s => { speaker := .user, texts := [s] }) ++
      items.flatMap respTurn }

/-! ### Joined texts -/

@[simp]
theorem joinStrings_singleton (a sep : String) : joinStrings [a] sep = a := rfl

theorem foldl_join (a b sep : String) (rest : List String) :
    rest.foldl (fun out p => out ++ (sep ++ p)) (a ++ b) =
      a ++ rest.foldl (fun out p => out ++ (sep ++ p)) b := by
  induction rest generalizing b with
  | nil => rfl
  | cons c rest ih => rw [foldl_cons, foldl_cons, String.append_assoc, ih]

theorem joinStrings_cons (a b sep : String) (rest : List String) :
    joinStrings (a :: b :: rest) sep = a ++ (sep ++ joinStrings (b :: rest) sep) := by
  simp [joinStrings, foldl_join]

theorem lines_joinStrings {texts : List String} (h : texts ≠ []) :
    lines [joinStrings texts "\n"] = lines texts := by
  induction texts with
  | nil => exact absurd rfl h
  | cons a rest ih =>
    cases rest with
    | nil => rfl
    | cons b rest =>
      have ih := ih (cons_ne_nil _ _)
      simp only [lines, flatMap_cons, flatMap_nil, append_nil] at ih ⊢
      rw [joinStrings_cons, String.toList_append, String.toList_append,
        show "\n".toList = ['\n'] from rfl, singleton_append, Text.lines_append_newline, ih]

theorem infix_joinStrings {texts : List String} (sep : String) {t : String} (h : t ∈ texts) :
    t.toList <:+: (joinStrings texts sep).toList := by
  induction texts with
  | nil => exact absurd h not_mem_nil
  | cons a rest ih =>
    cases rest with
    | nil =>
      rw [mem_singleton.mp h]
      exact infix_refl _
    | cons b rest =>
      rw [joinStrings_cons, String.toList_append, String.toList_append]
      rcases mem_cons.mp h with rfl | h
      · exact (prefix_append _ _).isInfix
      · exact (ih h).trans ((suffix_append _ _).trans (suffix_append _ _)).isInfix

@[simp]
theorem blank_append (a b : String) : blank (a ++ b) = (blank a && blank b) := by
  simp [blank, Text.blank, String.toList_append]

theorem blank_joinStrings {sep : String} (hsep : blank sep) (texts : List String) :
    blank (joinStrings texts sep) = texts.all blank := by
  induction texts with
  | nil => rfl
  | cons a rest ih =>
    cases rest with
    | nil => simp
    | cons b rest => simp [joinStrings_cons, hsep, ih]

theorem lines_eq_nil_iff (texts : List String) : lines texts = [] ↔ texts.all blank := by
  simp [lines, Text.lines_eq_nil_iff, blank]

/-! ### Kept instructions -/

namespace SameInstructions

variable {texts texts' texts'' : List String}

theorem refl (texts : List String) : SameInstructions texts texts :=
  ⟨fun t ht _ => ⟨t, ht, infix_refl _⟩, rfl⟩

theorem joined (h : texts ≠ []) : SameInstructions texts [joinStrings texts "\n"] :=
  ⟨fun _ ht _ => ⟨_, mem_singleton_self _, infix_joinStrings _ ht⟩, (lines_joinStrings h).symm⟩

/-- Texts of line breaks only can be left out. -/
theorem of_blank (h : texts.all blank) : SameInstructions texts [] :=
  ⟨fun t ht hb => absurd (all_eq_true.mp h t ht) hb, (lines_eq_nil_iff texts).mpr h⟩

theorem trans (h : SameInstructions texts texts') (h' : SameInstructions texts' texts'') :
    SameInstructions texts texts'' := by
  refine ⟨fun t ht hb => ?_, h.lines_eq.trans h'.lines_eq⟩
  obtain ⟨u, hu, htu⟩ := h.occurs t ht hb
  have hub : ¬ blank u := by
    intro hbu
    refine hb (all_eq_true.mpr fun c hc => ?_)
    exact all_eq_true.mp hbu c (htu.subset hc)
  obtain ⟨v, hv, huv⟩ := h'.occurs u hu hub
  exact ⟨v, hv, htu.trans huv⟩

theorem flatMap {α : Type} {f g : α → List String} {l : List α}
    (h : ∀ a ∈ l, SameInstructions (f a) (g a)) : SameInstructions (l.flatMap f) (l.flatMap g) := by
  refine ⟨fun t ht hb => ?_, ?_⟩
  · obtain ⟨a, ha, hta⟩ := mem_flatMap.mp ht
    obtain ⟨u, hu, htu⟩ := (h a ha).occurs t hta hb
    exact ⟨u, mem_flatMap.mpr ⟨a, ha, hu⟩, htu⟩
  · simp only [lines, flatMap_assoc]
    exact flatMap_congr fun a ha => (h a ha).lines_eq

theorem append {more more' : List String} (h : SameInstructions texts texts')
    (h' : SameInstructions more more') : SameInstructions (texts ++ more) (texts' ++ more') := by
  refine ⟨fun t ht hb => ?_, ?_⟩
  · rcases mem_append.mp ht with ht | ht
    · obtain ⟨u, hu, htu⟩ := h.occurs t ht hb
      exact ⟨u, mem_append_left _ hu, htu⟩
    · obtain ⟨u, hu, htu⟩ := h'.occurs t ht hb
      exact ⟨u, mem_append_right _ hu, htu⟩
  · simp only [lines, flatMap_append] at *
    rw [← lines, ← lines, h.lines_eq, h'.lines_eq]
    rfl

end SameInstructions

/-- Instructions that are kept unless they are dropped: they are the same if what is dropped is
blank. -/
theorem sameInstructions_iff {α : Type} {f g : α → List String} (dropped : α → Prop) {l : List α}
    {texts : List String} (hkept : ∀ a ∈ l, ¬ dropped a → SameInstructions (f a) (g a))
    (hlost : ∀ a ∈ l, dropped a → g a = []) (htexts : SameInstructions (l.flatMap g) texts) :
    SameInstructions (l.flatMap f) texts ↔ ∀ a ∈ l, dropped a → (f a).all blank := by
  constructor
  · intro h
    have heq := h.lines_eq.trans htexts.lines_eq.symm
    simp only [lines, flatMap_assoc] at heq
    rw [Pieces.flatMap_eq_iff fun a => dropped a → (f a).all blank] at heq
    · exact heq
    · intro a ha hk
      by_cases hd : dropped a
      · rw [hlost a ha hd]
        exact (lines_eq_nil_iff _).mpr (hk hd)
      · exact (hkept a ha hd).lines_eq
    · intro a ha hk
      obtain ⟨hd, hb⟩ := Classical.not_imp.mp hk
      rw [hlost a ha hd]
      exact length_pos_iff.mpr fun h0 => hb ((lines_eq_nil_iff _).mp h0)
  · intro h
    refine (SameInstructions.flatMap fun a ha => ?_).trans htexts
    by_cases hd : dropped a
    · rw [hlost a ha hd]
      exact .of_blank (h a ha hd)
    · exact hkept a ha hd

end C4Gateway.Protoconv
