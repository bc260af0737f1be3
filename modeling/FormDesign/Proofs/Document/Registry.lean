import FormDesign.Translations
import Mathlib.Data.Finset.Card

/-!
# The registry of texts

A registry keeps the languages, a block of entries for each of them, and the paths that have been
registered. All three are changed together when a text is registered, so after any run of
registrations they tell of the same calls: each block has an entry for every call, and the paths
are those of the calls, however often a path was registered.

## Main results

* `Records.contains_iff`, `Records.size_eq`, `Records.isEmpty_iff`: what is answered about the
  texts that have been registered;
* `Records.size_eq_length_iff`: paths and entries are equally many when no path is repeated;
* `registry_in_lockstep`: all of this after any run of registrations.
-/

namespace FormDesign

open Xml (Node escape)

namespace Translations

variable {quote : String → String} {texts : List (String × LocalizedText)} {t : Translations}

namespace Records

/-- A path is known when a text was registered under it. -/
theorem contains_iff (h : Records quote texts t) (path : String) :
    t.contains path = true ↔ path ∈ texts.map Prod.fst := by
  rw [contains, List.contains_iff_mem, h.keys]

/-- The paths that are kept are those of the texts, each once. -/
theorem size_eq (h : Records quote texts t) : t.size = (texts.map Prod.fst).toFinset.card := by
  have hKeys : t.keys.toFinset = (texts.map Prod.fst).toFinset := by
    apply List.toFinset.ext
    exact h.keys
  rw [size, ← hKeys, List.toFinset_card_of_nodup t.nodup]

/-- Nothing is known when nothing was registered. -/
theorem isEmpty_iff (h : Records quote texts t) : t.isEmpty = true ↔ texts = [] := by
  rw [isEmpty, List.isEmpty_iff, List.eq_nil_iff_forall_not_mem]
  simp only [h.keys]
  rw [← List.eq_nil_iff_forall_not_mem, List.map_eq_nil_iff]

/-- There are as many paths as texts exactly when no path is repeated. -/
theorem size_eq_length_iff (h : Records quote texts t) :
    t.size = texts.length ↔ (texts.map Prod.fst).Nodup := by
  have hLength : (texts.map Prod.fst).length = texts.length := List.length_map _
  -- what is left when repetitions are dropped has the same length only if nothing was dropped
  rw [h.size_eq, List.card_toFinset, ← hLength, (List.dedup_sublist _).length_eq,
    List.dedup_eq_self]

end Records

/-- After any run of registrations on an empty registry, the texts registered are recorded. -/
theorem records_foldl_register (languages : List String)
    (calls : List (String × LocalizedText)) :
    Records escape calls
      (calls.foldl (fun t call => t.register call.1 call.2) (empty languages)) :=
  (records_empty languages).registerAll calls

/-- The block of a language in full. -/
theorem block_eq (quote : String → String) (texts : List (String × LocalizedText))
    (language : String) :
    block quote texts language = .parent "translation" (.ofList [("lang", language)])
      (texts.map fun e => .parent "text" (.ofList [("id", quote e.1)])
        [.text "value" .empty (quote (e.2.get language))]) :=
  rfl

theorem length_children_block (quote : String → String) (texts : List (String × LocalizedText))
    (language : String) : (block quote texts language).children.length = texts.length := by
  rw [block_eq, Node.children, List.length_map]

end Translations

/-- After any run of registrations, with paths repeated or not, there is a translation for each
language, in order, and each of them has an entry for each call, in order, with the path and with
what the text says in the language, escaped. The paths that are known are those of the calls, each
counted once, and none is known only before the first call. So where there is a language, there are
as many entries in each translation as paths exactly when no path was registered twice. -/
theorem registry_in_lockstep (languages : List String) (calls : List (String × LocalizedText)) :
    let t := calls.foldl (fun t call => t.register call.1 call.2) (Translations.empty languages)
    t.itext = .parent "itext" .empty (languages.map fun language =>
      .parent "translation" (.ofList [("lang", language)]) (calls.map fun call =>
        .parent "text" (.ofList [("id", escape call.1)])
          [.text "value" .empty (escape (call.2.get language))])) ∧
    (∀ path, t.contains path = true ↔ path ∈ calls.map Prod.fst) ∧
    t.size = (calls.map Prod.fst).toFinset.card ∧
    (t.isEmpty = true ↔ calls = []) ∧
    (languages ≠ [] → ((∀ block ∈ t.itext.children, t.size = block.children.length) ↔
      (calls.map Prod.fst).Nodup)) := by
  intro t
  have hRecords : t.Records escape calls := Translations.records_foldl_register languages calls
  have hItext : t.itext = .parent "itext" .empty
      (languages.map (Translations.block escape calls)) :=
    Translations.itext_registerAll languages calls
  refine ⟨hItext, hRecords.contains_iff, hRecords.size_eq, hRecords.isEmpty_iff, fun hSome => ?_⟩
  obtain ⟨language, hLanguage⟩ := List.exists_mem_of_ne_nil languages hSome
  rw [hItext, Node.children, List.forall_mem_map, ← hRecords.size_eq_length_iff]
  simp only [Translations.length_children_block]
  exact ⟨fun h => h language hLanguage, fun h _ _ => h⟩

/-- A path that is registered twice, with a text that names one language and with one that names
none. -/
def repeatedCalls : List (String × LocalizedText) :=
  [("/data/q:label", .ofList [("en", "Q <1>")]), ("/data/q:label", .empty)]

/-- A path that is registered twice is known once, and has two entries in every block. -/
theorem registry_in_lockstep_repeated :
    let t := repeatedCalls.foldl (fun t call => t.register call.1 call.2)
      (Translations.empty ["en", "fr"])
    ["en", "fr"] ≠ [] ∧ t.size = 1 ∧
      ¬ ∀ block ∈ t.itext.children, t.size = block.children.length := by
  obtain ⟨-, -, hSize, -, hLockstep⟩ := registry_in_lockstep ["en", "fr"] repeatedCalls
  have hLanguages : ["en", "fr"] ≠ [] := List.cons_ne_nil _ _
  have hRepeated : ¬ (repeatedCalls.map Prod.fst).Nodup := by decide
  exact ⟨hLanguages, hSize.trans (by decide), fun h => hRepeated ((hLockstep hLanguages).1 h)⟩

end FormDesign
