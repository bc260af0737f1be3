import FormDesign.Json.Tree.Read
import FormDesign.Proofs.Json.Scan
import FormDesign.Proofs.Json.Value
import FormDesign.Proofs.Outcome

/-!
# Reading what has been printed

A value is printed as its tokens with blanks between them, whatever the layout. These tokens are
found again, and the tree that they build is that of the value. So a reader of the text does what it
does with the tree of the value, and no layout makes a difference to it.

## Main definitions

* `Value.tokens`: the tokens of a value;
* `Follows`, `Value.IsLegible`: what may follow a value, and values that are legible in front of it.

## Main results

* `tokens_print`: a printed value is cut into its tokens, in every layout;
* `Tree.ofTokens_tokens`: the tokens of a value build its tree;
* `readText_print`: reading a printed value is reading its tree, and so it is with blanks behind the
  value (`readText_print_append`).
-/

namespace FormDesign.Json

namespace Value

mutual

/-- The tokens of a value. -/
def tokens : Value → List Token
  | null => [.word .null]
  | bool true => [.word .true]
  | bool false => [.word .false]
  | number (.int n) => [.number (Tree.numeralOf (.int n))]
  -- there is no numeral for infinity, and none for what is no number
  | number (.float x) => [if x.isFinite then .number (Tree.numeralOf (.float x)) else .word .null]
  | string s => [.string (.ofString s)]
  | array [] => [.openArray, .closeArray]
  | array (item :: items) => .openArray :: (tokens item ++ itemTokens items ++ [.closeArray])
  | object [] => [.openObject, .closeObject]
  | object ((key, value) :: members) =>
    .openObject :: .string (.ofString key) :: .colon ::
      (tokens value ++ memberTokens members ++ [.closeObject])

/-- The tokens of the items after the first, each behind its comma. -/
def itemTokens : List Value → List Token
  | [] => []
  | item :: items => .comma :: (tokens item ++ itemTokens items)

/-- The tokens of the members after the first, each behind its comma. -/
def memberTokens : List (String × Value) → List Token
  | [] => []
  | (key, value) :: members =>
    .comma :: .string (.ofString key) :: .colon :: (tokens value ++ memberTokens members)

end

end Value

/-! ## From values to tokens -/

@[simp]
theorem filterMap_token?_token (t : Token) (lexemes : List Lexeme) :
    (Lexeme.token t :: lexemes).filterMap Lexeme.token? =
      t :: lexemes.filterMap Lexeme.token? := rfl

@[simp]
theorem filterMap_token?_blank (cs : List Char) (lexemes : List Lexeme) :
    (Lexeme.blank cs :: lexemes).filterMap Lexeme.token? = lexemes.filterMap Lexeme.token? := rfl

namespace Value

theorem filterMap_itemLexemes {layout : Layout} (depth : Nat) {others : List Value}
    (h : ∀ v ∈ others, ∀ depth, (v.lexemes layout depth).filterMap Lexeme.token? = v.tokens) :
    (itemLexemes layout depth others).filterMap Lexeme.token? = itemTokens others := by
  induction others with
  | nil => rfl
  | cons item others ih =>
    obtain ⟨hFirst, hOthers⟩ := List.forall_mem_cons.1 h
    simp [itemLexemes, itemTokens, hFirst, ih hOthers]

theorem filterMap_memberLexemes {layout : Layout} (depth : Nat) {others : List (String × Value)}
    (h : ∀ member ∈ others, ∀ depth,
      (member.2.lexemes layout depth).filterMap Lexeme.token? = member.2.tokens) :
    (memberLexemes layout depth others).filterMap Lexeme.token? = memberTokens others := by
  induction others with
  | nil => rfl
  | cons member others ih =>
    obtain ⟨hFirst, hOthers⟩ := List.forall_mem_cons.1 h
    simp [memberLexemes, memberTokens, hFirst, ih hOthers]

/-- The lexemes of a value are its tokens and blanks. -/
theorem filterMap_lexemes (layout : Layout) (v : Value) (depth : Nat) :
    (v.lexemes layout depth).filterMap Lexeme.token? = v.tokens := by
  induction v using inductionOn generalizing depth with
  | null => rfl
  | bool b => cases b <;> rfl
  | number n => cases n <;> rfl
  | string s => rfl
  | array items ih =>
    cases items with
    | nil => rfl
    | cons item items =>
      obtain ⟨hFirst, hOthers⟩ := List.forall_mem_cons.1 ih
      simp [lexemes, tokens, hFirst, filterMap_itemLexemes _ hOthers]
  | object members ih =>
    cases members with
    | nil => rfl
    | cons member members =>
      obtain ⟨hFirst, hOthers⟩ := List.forall_mem_cons.1 ih
      simp [lexemes, tokens, hFirst, filterMap_memberLexemes _ hOthers]

end Value

/-! ## Legible values -/

theorem Layout.isSpacing_of_mem_newline (layout : Layout) (depth : Nat) :
    ∀ c ∈ layout.newline depth, isSpacing c = true := by
  cases layout with
  | compact => exact List.forall_mem_nil _
  | indented =>
    refine List.forall_mem_cons.2 ⟨by decide, fun c hc => ?_⟩
    rw [List.eq_of_mem_replicate hc]
    decide

theorem Layout.isSpacing_of_mem_gap (layout : Layout) : ∀ c ∈ layout.gap, isSpacing c = true := by
  cases layout with
  | compact => exact List.forall_mem_nil _
  | indented => exact List.forall_mem_singleton.2 (by decide)

/-- The characters of lexemes, as they follow one another. -/
def charsOf (lexemes : List Lexeme) : List Char :=
  lexemes.flatMap Lexeme.chars

/-- Lexemes that may follow a value: legible themselves, and no way to go on with a number. -/
structure Follows (rest : List Lexeme) : Prop where
  legible : Legible rest
  endsNumber : EndsNumber (charsOf rest)

theorem follows_nil : Follows [] :=
  ⟨.nil, endsNumber_nil⟩

/-- Blanks may follow a value, before what else may. -/
theorem Follows.blank {rest : List Lexeme} (h : Follows rest) {cs : List Char}
    (spacing : ∀ c ∈ cs, isSpacing c = true) : Follows (.blank cs :: rest) := by
  refine ⟨.blank spacing h.legible, ?_⟩
  cases cs with
  | nil => exact h.endsNumber
  | cons c cs =>
    have hBlank : isSpacing c = true := spacing c (List.mem_cons_self ..)
    refine endsNumber_cons ?_ _
    simp only [isSpacing, Bool.or_eq_true, decide_eq_true_eq] at hBlank
    rcases hBlank with ((rfl | rfl) | rfl) | rfl
    all_goals decide

/-- A bracket or a separator may follow a value. -/
theorem Legible.follows {t : Token} {rest : List Lexeme} (h : Legible rest)
    (hMark : t = .closeArray ∨ t = .closeObject ∨ t = .comma) : Follows (.token t :: rest) := by
  rcases hMark with rfl | rfl | rfl
  all_goals exact ⟨.token trivial (fun _ h => nomatch h) h, endsNumber_cons (by decide) _⟩

/-- A string may stand before anything that is legible. -/
theorem Legible.string {rest : List Lexeme} (h : Legible rest) (s : String) :
    Legible (.token (.string (.ofString s)) :: rest) :=
  .token ⟨s, rfl⟩ (fun _ h => nomatch h) h

/-- A bracket that opens or a colon may stand before anything that is legible. -/
theorem Legible.mark {t : Token} {rest : List Lexeme} (h : Legible rest)
    (hMark : t = .openArray ∨ t = .openObject ∨ t = .colon) : Legible (.token t :: rest) := by
  rcases hMark with rfl | rfl | rfl
  all_goals exact .token trivial (fun _ h => nomatch h) h

/-- The numeral of a number is proper. -/
theorem isProper_numeralOf (n : Number) : (Tree.numeralOf n).IsProper := by
  cases n with
  | int n => exact Decimal.isProper_ofInt n
  | float x =>
    exact Decimal.Style.isProper_numeral (List.forall_mem_singleton.2 (by decide)) x

/-- A number may stand before what may follow a value. -/
theorem Follows.number {rest : List Lexeme} (h : Follows rest) (n : Number) :
    Legible (.token (.number (Tree.numeralOf n)) :: rest) :=
  .token (isProper_numeralOf n) (fun _ _ => h.endsNumber) h.legible

/-- A word may stand before what may follow a value. -/
theorem Follows.word {rest : List Lexeme} (h : Follows rest) (w : Word) :
    Legible (.token (.word w) :: rest) :=
  .token trivial (fun _ h => nomatch h) h.legible

section

variable {layout : Layout} {rest : List Lexeme}

/-- A value is legible in front of whatever may follow it, at every depth. -/
def Value.IsLegible (layout : Layout) (v : Value) : Prop :=
  ∀ (depth : Nat) {rest : List Lexeme}, Follows rest → Legible (v.lexemes layout depth ++ rest)

/-- The items after the first may follow a value, as each stands behind its comma. -/
theorem follows_itemLexemes (depth : Nat) {others : List Value}
    (h : ∀ v ∈ others, v.IsLegible layout) (hRest : Follows rest) :
    Follows (Value.itemLexemes layout depth others ++ rest) := by
  induction others with
  | nil => exact hRest
  | cons item others ih =>
    obtain ⟨hFirst, hOthers⟩ := List.forall_mem_cons.1 h
    have hItem := hFirst depth (ih hOthers)
    have hComma := (Legible.blank (layout.isSpacing_of_mem_newline depth) hItem).follows
      (t := .comma) (.inr (.inr rfl))
    simpa [Value.itemLexemes] using hComma

/-- A member is legible in front of whatever may follow its value. -/
theorem legible_member {member : String × Value} (h : member.2.IsLegible layout) (depth : Nat)
    (hRest : Follows rest) :
    Legible (.token (.string (.ofString member.1)) :: .token .colon :: .blank layout.gap ::
      (member.2.lexemes layout depth ++ rest)) :=
  ((Legible.blank layout.isSpacing_of_mem_gap (h depth hRest)).mark (.inr (.inr rfl))).string
    member.1

/-- The members after the first may follow a value, as each stands behind its comma. -/
theorem follows_memberLexemes (depth : Nat) {others : List (String × Value)}
    (h : ∀ member ∈ others, member.2.IsLegible layout) (hRest : Follows rest) :
    Follows (Value.memberLexemes layout depth others ++ rest) := by
  induction others with
  | nil => exact hRest
  | cons member others ih =>
    obtain ⟨hFirst, hOthers⟩ := List.forall_mem_cons.1 h
    have hMember := legible_member hFirst depth (ih hOthers)
    have hComma := (Legible.blank (layout.isSpacing_of_mem_newline depth) hMember).follows
      (t := .comma) (.inr (.inr rfl))
    simpa [Value.memberLexemes] using hComma

end

/-- Every value is legible in front of what may follow it. -/
theorem isLegible (layout : Layout) (v : Value) : v.IsLegible layout := by
  have hNewline := layout.isSpacing_of_mem_newline
  induction v using Value.inductionOn with
  | null => exact fun _ _ h => h.word .null
  | bool b =>
    cases b with
    | true => exact fun _ _ h => h.word .true
    | false => exact fun _ _ h => h.word .false
  | number n =>
    intro depth rest h
    cases n with
    | int n => exact h.number (.int n)
    | float x =>
      rw [Value.lexemes]
      split
      · exact h.number (.float x)
      · exact h.word .null
  | string s => exact fun _ _ h => h.legible.string s
  | array items ih =>
    intro depth rest h
    -- from the end: the bracket, the items after the first, the first one, and the other bracket
    have hClose := h.legible.follows (t := .closeArray) (.inl rfl)
    cases items with
    | nil => exact hClose.legible.mark (.inl rfl)
    | cons item items =>
      obtain ⟨hFirst, hOthers⟩ := List.forall_mem_cons.1 ih
      have hItem := hFirst (depth + 1)
        (follows_itemLexemes (depth + 1) hOthers (hClose.blank (hNewline depth)))
      have hOpen := (Legible.blank (hNewline (depth + 1)) hItem).mark (t := .openArray) (.inl rfl)
      simpa [Value.lexemes] using hOpen
  | object members ih =>
    intro depth rest h
    have hClose := h.legible.follows (t := .closeObject) (.inr (.inl rfl))
    cases members with
    | nil => exact hClose.legible.mark (.inr (.inl rfl))
    | cons member members =>
      obtain ⟨hFirst, hOthers⟩ := List.forall_mem_cons.1 ih
      have hMember := legible_member hFirst (depth + 1)
        (follows_memberLexemes (depth + 1) hOthers (hClose.blank (hNewline depth)))
      have hOpen := (Legible.blank (hNewline (depth + 1)) hMember).mark (t := .openObject)
        (.inr (.inl rfl))
      simpa [Value.lexemes] using hOpen

/-- A printed value is cut into its tokens, also with blanks behind it. -/
theorem tokens_print (layout : Layout) (v : Value) {blanks : List Char}
    (hBlanks : ∀ c ∈ blanks, isSpacing c = true) :
    tokens (v.print layout ++ String.ofList blanks) = v.tokens := by
  have hLegible : Legible (v.lexemes layout 0 ++ [.blank blanks]) :=
    isLegible layout v 0 (follows_nil.blank hBlanks)
  have hText : v.print layout ++ String.ofList blanks =
      String.ofList (charsOf (v.lexemes layout 0 ++ [.blank blanks])) := by
    rw [Value.print, ← String.ofList_append, charsOf, List.flatMap_append, List.flatMap_singleton,
      Lexeme.chars]
  rw [hText, charsOf, tokens_of_legible hLegible, List.filterMap_append, Value.filterMap_lexemes]
  exact List.append_nil _

/-! ## From tokens to trees -/

namespace Tree

/-- The first token of a value begins an item, so it closes nothing. -/
theorem exists_tokens_eq_cons (v : Value) : ∃ t ts, v.tokens = t :: ts ∧ t ≠ .closeArray := by
  cases v with
  | null => exact ⟨_, _, rfl, nofun⟩
  | bool b => cases b <;> exact ⟨_, _, rfl, nofun⟩
  | number n =>
    cases n with
    | int n => exact ⟨_, _, rfl, nofun⟩
    | float x =>
      refine ⟨_, _, rfl, ?_⟩
      split <;> exact nofun
  | string s => exact ⟨_, _, rfl, nofun⟩
  | array items => cases items <;> exact ⟨_, _, rfl, nofun⟩
  | object members => cases members <;> exact ⟨_, _, rfl, nofun⟩

theorem atFirstItem_tokens (v : Value) (rest : List Token) :
    atFirstItem (v.tokens ++ rest) = .more (v.tokens ++ rest) := by
  obtain ⟨t, ts, hTokens, hOpen⟩ := exists_tokens_eq_cons v
  rw [hTokens, List.cons_append]
  cases t <;> first | rfl | exact absurd rfl hOpen

theorem afterItem_comma_tokens (v : Value) (rest : List Token) :
    afterItem (.comma :: (v.tokens ++ rest)) = .more (v.tokens ++ rest) := by
  obtain ⟨t, ts, hTokens, hOpen⟩ := exists_tokens_eq_cons v
  rw [hTokens, List.cons_append]
  cases t <;> first | rfl | exact absurd rfl hOpen

theorem atFirstMember_string (s : StringToken) (rest : List Token) :
    atFirstMember (.string s :: rest) = .more (.string s :: rest) := rfl

theorem afterMember_comma_string (s : StringToken) (rest : List Token) :
    afterMember (.comma :: .string s :: rest) = .more (.string s :: rest) := rfl

/-- The tokens of a value build its tree, whatever follows them, in two steps for each. -/
def Builds (v : Value) : Prop :=
  ∀ (fuel : Nat) (rest : List Token), 2 * v.tokens.length ≤ fuel →
    build fuel (v.tokens ++ rest) = (ofValue v, rest)

/-- An item, the later ones and the bracket are built as a list that is closed. -/
theorem buildItems_tokens (item : Value) (others : List Value)
    (hBuilds : ∀ v ∈ item :: others, Builds v) (fuel : Nat) (rest : List Token)
    (hFuel : 2 * (item.tokens.length + (Value.itemTokens others).length) + 1 ≤ fuel) :
    buildItems fuel (item.tokens ++ (Value.itemTokens others ++ .closeArray :: rest)) =
      ⟨ofValue item :: others.map ofValue, .closed, rest⟩ := by
  induction others generalizing item fuel with
  | nil =>
    -- one step goes to the list, and the others to the item
    obtain ⟨hItem, -⟩ := List.forall_mem_cons.1 hBuilds
    rw [Value.itemTokens, List.length_nil] at hFuel
    obtain ⟨fuel, rfl⟩ : ∃ k, fuel = k + 1 := ⟨fuel - 1, by omega⟩
    rw [buildItems, hItem fuel _ (by omega)]
    rfl
  | cons next others ih =>
    obtain ⟨hItem, hOthers⟩ := List.forall_mem_cons.1 hBuilds
    rw [Value.itemTokens, List.length_cons, List.length_append] at hFuel
    obtain ⟨fuel, rfl⟩ : ∃ k, fuel = k + 1 := ⟨fuel - 1, by omega⟩
    rw [buildItems, hItem fuel _ (by omega), Value.itemTokens, List.cons_append,
      List.append_assoc]
    dsimp only
    rw [afterItem_comma_tokens]
    dsimp only
    rw [ih next hOthers fuel (by omega)]
    rfl

/-- A member, the later ones and the bracket are built as an object that is closed. -/
theorem buildMembers_tokens (member : String × Value) (others : List (String × Value))
    (hBuilds : ∀ m ∈ member :: others, Builds m.2) (fuel : Nat) (rest : List Token)
    (hFuel : 2 * (member.2.tokens.length + (Value.memberTokens others).length) + 1 ≤ fuel) :
    buildMembers fuel (.string (.ofString member.1) :: .colon ::
        (member.2.tokens ++ (Value.memberTokens others ++ .closeObject :: rest))) =
      ⟨(member :: others).map fun m => (.ofString m.1, ofValue m.2), .closed, rest⟩ := by
  induction others generalizing member fuel with
  | nil =>
    obtain ⟨hMember, -⟩ := List.forall_mem_cons.1 hBuilds
    rw [Value.memberTokens, List.length_nil] at hFuel
    obtain ⟨fuel, rfl⟩ : ∃ k, fuel = k + 1 := ⟨fuel - 1, by omega⟩
    rw [buildMembers, afterKey]
    dsimp only
    rw [hMember fuel _ (by omega)]
    rfl
  | cons next others ih =>
    obtain ⟨hMember, hOthers⟩ := List.forall_mem_cons.1 hBuilds
    rw [Value.memberTokens, List.length_cons, List.length_cons, List.length_cons,
      List.length_append] at hFuel
    obtain ⟨fuel, rfl⟩ : ∃ k, fuel = k + 1 := ⟨fuel - 1, by omega⟩
    rw [buildMembers, afterKey]
    dsimp only
    rw [hMember fuel _ (by omega), Value.memberTokens, List.cons_append, List.cons_append,
      List.cons_append, List.append_assoc, afterMember_comma_string]
    dsimp only
    rw [ih next hOthers fuel (by omega)]
    rfl

/-- As no value is without tokens, there is always a step to take. -/
theorem builds_of_step {v : Value}
    (h : ∀ (fuel : Nat) (rest : List Token), 2 * v.tokens.length ≤ fuel + 1 →
      build (fuel + 1) (v.tokens ++ rest) = (ofValue v, rest)) : Builds v := by
  intro fuel rest hFuel
  obtain ⟨t, ts, hTokens, -⟩ := exists_tokens_eq_cons v
  obtain ⟨fuel, rfl⟩ : ∃ k, fuel = k + 1 := by
    rw [hTokens, List.length_cons] at hFuel
    exact ⟨fuel - 1, by omega⟩
  exact h fuel rest hFuel

/-- Every value is built from its tokens. -/
theorem builds (v : Value) : Builds v := by
  induction v using Value.inductionOn with
  | null => exact builds_of_step fun _ _ _ => rfl
  | bool b => cases b <;> exact builds_of_step fun _ _ _ => rfl
  | number n =>
    cases n with
    | int n => exact builds_of_step fun _ _ _ => rfl
    | float x =>
      refine builds_of_step fun fuel rest _ => ?_
      rw [Value.tokens, ofValue]
      split <;> rfl
  | string s => exact builds_of_step fun _ _ _ => rfl
  | array items ih =>
    refine builds_of_step fun fuel rest hFuel => ?_
    cases items with
    | nil =>
      rw [ofValue_array]
      rfl
    | cons item items =>
      rw [Value.tokens, List.length_cons, List.length_append, List.length_append] at hFuel
      have hItems := buildItems_tokens item items ih fuel rest (by omega)
      rw [Value.tokens, List.cons_append, List.append_assoc, List.append_assoc,
        List.singleton_append, build, atFirstItem_tokens]
      dsimp only
      rw [hItems, ofValue_array, List.map_cons]
  | object members ih =>
    refine builds_of_step fun fuel rest hFuel => ?_
    cases members with
    | nil =>
      rw [ofValue_object]
      rfl
    | cons member members =>
      rw [Value.tokens, List.length_cons, List.length_cons, List.length_cons, List.length_append,
        List.length_append] at hFuel
      have hMembers := buildMembers_tokens member members ih fuel rest (by omega)
      rw [Value.tokens, List.cons_append, List.cons_append, List.cons_append, List.append_assoc,
        List.append_assoc, List.singleton_append, build, atFirstMember_string]
      dsimp only
      rw [hMembers, ofValue_object]

/-- The tokens of a value are those of one tree, with nothing behind it. -/
theorem ofTokens_tokens (v : Value) : ofTokens v.tokens = (ofValue v, []) := by
  have h := builds v (2 * v.tokens.length + 1) [] (Nat.le_succ _)
  rwa [List.append_nil] at h

end Tree

/-- The text of a printed value is that of its tree. -/
theorem ofTokens_print (layout : Layout) (v : Value) :
    Tree.ofTokens (tokens (v.print layout)) = (.ofValue v, []) := by
  have hBlanks : ∀ c ∈ ([] : List Char), isSpacing c = true := fun _ h => absurd h List.not_mem_nil
  have hTokens := tokens_print layout v hBlanks
  rw [String.ofList_nil, String.append_empty] at hTokens
  rw [hTokens, Tree.ofTokens_tokens]

/-- Reading a printed value is reading its tree, whatever the layout and the blanks behind it. -/
theorem readText_print_append {α : Type} (read : Nat → Tree → Except Fault α) (layout : Layout)
    (v : Value) {blanks : List Char} (hBlanks : ∀ c ∈ blanks, isSpacing c = true) :
    readText read (v.print layout ++ String.ofList blanks) = read maxRoom (.ofValue v) := by
  rw [readText, tokens_print layout v hBlanks, Tree.ofTokens_tokens]
  exact bind_pure _

/-- Reading a printed value is reading its tree, whatever the layout. -/
theorem readText_print {α : Type} (read : Nat → Tree → Except Fault α) (layout : Layout)
    (v : Value) : readText read (v.print layout) = read maxRoom (.ofValue v) := by
  rw [readText, ofTokens_print]
  exact bind_pure _

/-- What is read from a text is read from a tree, and so is what else is read from it. -/
theorem exists_tree_of_readText {α : Type} {read : Nat → Tree → Except Fault α} {text : String}
    {a : α} (h : readText read text = .ok a) :
    ∃ t, read maxRoom t = .ok a ∧
      ∀ {β : Type} (read' : Nat → Tree → Except Fault β),
        readText read' text = read' maxRoom t := by
  unfold readText at h ⊢
  -- the tree is built before anything is read from it
  generalize Tree.ofTokens (tokens text) = built at h ⊢
  obtain ⟨t, rest⟩ := built
  obtain ⟨a', hRead, h⟩ := bind_eq_ok_iff.1 h
  cases rest with
  | nil =>
    obtain rfl := Except.ok.inj h
    exact ⟨t, hRead, fun read' => bind_pure _⟩
  | cons token rest => exact nomatch h

end FormDesign.Json
