import FormDesign.LocalizedText
import FormDesign.Xml.Escape
import FormDesign.Xml.Node

/-!
# Translations

The texts of a compiled form, each under its path, in the order in which they were registered. Every
active language has a block, and a text that is registered gets an entry in all of them at once, so
that the blocks stay in step. Beside the blocks, the paths are kept under which there is a text.

* `Records.registerAll`: what is held after texts have been registered one after another.
* `itext_registerAll`: the element that is made of it.
-/

namespace FormDesign

open Xml (Node)

/-- The registered texts in the languages that they are needed in. -/
structure Translations where
  languages : List String
  /-- The entries of each language, in the order of the languages. -/
  blocks : List (List Node)
  /-- The paths under which there is a text. -/
  keys : List String
  /-- Every language has a block. -/
  aligned : blocks.length = languages.length
  /-- A path is kept once, however often a text is registered under it. -/
  nodup : keys.Nodup

namespace Translations

/-- No texts yet. -/
def empty (languages : List String) : Translations where
  languages := languages
  blocks := languages.map fun _ => []
  keys := []
  aligned := List.length_map _
  nodup := .nil

/-- The entry of one text in one language, with texts and paths written by `quote`. -/
def entry (quote : String → String) (language : String) (path : String) (text : LocalizedText) :
    Node :=
  (Node.parent "text" .empty [.text "value" .empty (quote (text.get language))]).attr "id"
    (quote path)

/-- Registers a text under a path: an entry in each block, behind those before it. -/
def registerWith (quote : String → String) (t : Translations) (path : String)
    (text : LocalizedText) : Translations where
  languages := t.languages
  blocks := List.zipWith (fun language block => block ++ [entry quote language path text])
    t.languages t.blocks
  keys := t.keys.insert path
  aligned := by rw [List.length_zipWith, t.aligned, Nat.min_self]
  nodup := by
    rw [List.insert]
    split
    · exact t.nodup
    · next hNew => exact List.nodup_cons.2 ⟨by simpa using hNew, t.nodup⟩

/-- Registers a text under a path, with reserved characters escaped. -/
def register (t : Translations) (path : String) (text : LocalizedText) : Translations :=
  t.registerWith Xml.escape path text

/-- Registers texts one after another, each under its path. -/
def registerAll (quote : String → String) (t : Translations)
    (texts : List (String × LocalizedText)) : Translations :=
  texts.foldl (fun t e => t.registerWith quote e.1 e.2) t

/-- Whether a text is registered under this path. -/
def contains (t : Translations) (path : String) : Bool :=
  t.keys.contains path

/-- The number of different paths. -/
def size (t : Translations) : Nat :=
  t.keys.length

/-- Whether nothing is registered. -/
def isEmpty (t : Translations) : Bool :=
  t.keys.isEmpty

/-- The element of one language with its entries. -/
def translation (language : String) (entries : List Node) : Node :=
  -- The code of the language is placed as it is.
  (Node.parent "translation" .empty entries).attr "lang" language

/-- The element that holds one block for each language. -/
def itext (t : Translations) : Node :=
  .parent "itext" .empty (List.zipWith translation t.languages t.blocks)

/-! ## What is held after a run -/

/-- The entries of texts in one language, in order. -/
def entries (quote : String → String) (texts : List (String × LocalizedText)) (language : String) :
    List Node :=
  texts.map fun e => entry quote language e.1 e.2

/-- The block of one language for texts, in order. -/
def block (quote : String → String) (texts : List (String × LocalizedText)) (language : String) :
    Node :=
  translation language (entries quote texts language)

/-- What has been registered are these texts, in this order. -/
structure Records (quote : String → String) (texts : List (String × LocalizedText))
    (t : Translations) : Prop where
  /-- The block of each language holds one entry for each text. -/
  blocks : t.blocks = t.languages.map (entries quote texts)
  keys : ∀ path, path ∈ t.keys ↔ path ∈ texts.map Prod.fst

variable {quote : String → String} {texts : List (String × LocalizedText)} {t : Translations}

/-- Before the first text is registered, none is recorded. -/
theorem records_empty (languages : List String) : Records quote [] (empty languages) where
  blocks := rfl
  keys _ := .rfl

/-- One more text is recorded behind the others. -/
theorem Records.registerWith (h : Records quote texts t) (path : String) (text : LocalizedText) :
    Records quote (texts ++ [(path, text)]) (t.registerWith quote path text) where
  blocks := by
    have hStep : (t.registerWith quote path text).blocks =
        List.zipWith (fun language block => block ++ [entry quote language path text])
          t.languages t.blocks := rfl
    -- there are as many blocks as languages, so that each language meets its own block
    rw [hStep, h.blocks, List.zipWith_map_right, List.zipWith_self]
    refine List.map_congr_left fun language _ => ?_
    rw [entries, entries, List.map_append, List.map_singleton]
  keys key := by
    rw [Translations.registerWith, List.mem_insert_iff, h.keys, List.map_append, List.mem_append,
      List.map_singleton, List.mem_singleton, or_comm]

@[simp] theorem languages_registerAll (texts : List (String × LocalizedText)) (t : Translations) :
    (t.registerAll quote texts).languages = t.languages := by
  induction texts generalizing t with
  | nil => rfl
  | cons e texts ih => exact ih (t.registerWith quote e.1 e.2)

/-- Texts that are registered one after another are recorded in their order. -/
theorem Records.registerAll (h : Records quote texts t) (more : List (String × LocalizedText)) :
    Records quote (texts ++ more) (t.registerAll quote more) := by
  induction more generalizing texts t with
  | nil => rwa [List.append_nil]
  | cons e more ih =>
    rw [List.append_cons]
    exact ih (h.registerWith e.1 e.2)

/-- The element of the translations after texts have been registered. -/
theorem itext_registerAll (languages : List String) (texts : List (String × LocalizedText)) :
    ((empty languages).registerAll quote texts).itext =
      .parent "itext" .empty (languages.map (block quote texts)) := by
  have h : Records quote texts ((empty languages).registerAll quote texts) :=
    (records_empty languages).registerAll texts
  rw [itext, h.blocks, languages_registerAll, List.zipWith_map_right, List.zipWith_self]
  rfl

end Translations

end FormDesign
