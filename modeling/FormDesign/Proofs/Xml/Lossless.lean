import FormDesign.Proofs.Xml.Tags

/-!
# Texts that determine their trees

Rendering a tree mixes its texts with the blanks and line breaks of the layout, and writes names and
values as they are. Still nothing is lost as long as names can be told from what follows them, no
value holds a quote, and no text holds an angle bracket or looks like the break before the next
line. Every part of such a tree says where it ends, so two texts that begin with the lines of a tree
begin with those of the same tree.

## Main definitions

* `IsTagName`, `IsLineBreak`: names that end where a tag goes on, and texts that look like layout;
* `Node.IsClean`: an element whose own parts can be told from what is around them.

## Main results

* `Node.renderAt_append_inj`: whatever follows the lines of a clean tree, they determine the tree;
* `Node.render_lossless`: clean trees have the same text exactly when they are equal.
-/

namespace FormDesign.Xml

/-- A name without white space and without any character that a tag uses otherwise. -/
def IsTagName (name : String) : Prop :=
  name ≠ "" ∧ ∀ c ∈ name.toList, Text.isSpace c = false ∧ c ∉ ['<', '>', '/', '=', '"']

instance (name : String) : Decidable (IsTagName name) :=
  @instDecidableAnd _ _ _ (List.decidableBAll _ name.toList)

/-- A text that is the break of a line and some of the blanks that begin the next. -/
def IsLineBreak (text : String) : Prop :=
  ∃ n, text.toList = '\n' :: List.replicate n ' '

instance (text : String) : Decidable (IsLineBreak text) :=
  decidable_of_iff (text.toList = '\n' :: List.replicate (text.toList.length - 1) ' ') <| by
    constructor
    · intro h
      exact ⟨_, h⟩
    · rintro ⟨n, h⟩
      rw [h, List.length_cons, List.length_replicate, Nat.add_sub_cancel]

/-- An element whose name, attributes and text can be told from what is around them. -/
structure Node.IsClean (node : Node) : Prop where
  name : IsTagName node.name
  attrs : ∀ entry ∈ node.attrs.entries, IsTagName entry.1 ∧ '"' ∉ entry.2.toList
  text : ∀ value ∈ node.value?, '<' ∉ value.toList ∧ ¬ IsLineBreak value

/-! ## Characters up to a stop -/

section

variable {xs ys s t : List Char} {c d : Char}

/-- Characters that go up to the first of certain stops are determined, and so is the stop. -/
theorem append_cons_inj {IsStop : Char → Prop} (hx : ∀ x ∈ xs, ¬ IsStop x)
    (hy : ∀ y ∈ ys, ¬ IsStop y) (hc : IsStop c) (hd : IsStop d)
    (h : xs ++ c :: s = ys ++ d :: t) : xs = ys ∧ c = d ∧ s = t := by
  induction xs generalizing ys with
  | nil =>
    cases ys with
    | nil => exact ⟨rfl, List.cons.inj h⟩
    | cons y ys =>
      -- the stop would be the first character of the others
      obtain ⟨rfl, -⟩ := List.cons.inj h
      exact absurd hc (hy c (List.mem_cons_self ..))
  | cons x xs ih =>
    cases ys with
    | nil =>
      obtain ⟨rfl, -⟩ := List.cons.inj h
      exact absurd hd (hx x (List.mem_cons_self ..))
    | cons y ys =>
      obtain ⟨rfl, hRest⟩ := List.cons.inj h
      obtain ⟨rfl, hEnd⟩ := ih (List.forall_mem_cons.1 hx).2 (List.forall_mem_cons.1 hy).2 hRest
      exact ⟨rfl, hEnd⟩

/-- Characters up to the first `c` are determined. -/
theorem append_cons_inj_of_not_mem (hx : c ∉ xs) (hy : c ∉ ys) (h : xs ++ c :: s = ys ++ c :: t) :
    xs = ys ∧ s = t := by
  have hNot : ∀ zs : List Char, c ∉ zs → ∀ z ∈ zs, ¬ z = c := fun zs hz z hMem hIs =>
    hz (hIs ▸ hMem)
  obtain ⟨hSame, -, hRest⟩ := append_cons_inj (hNot xs hx) (hNot ys hy) rfl rfl h
  exact ⟨hSame, hRest⟩

/-- The blanks before an angle bracket are determined. -/
theorem replicate_append_inj {m n : Nat}
    (h : List.replicate m ' ' ++ '<' :: s = List.replicate n ' ' ++ '<' :: t) : m = n ∧ s = t := by
  have hBlanks : ∀ k, '<' ∉ List.replicate k ' ' := fun k hMem =>
    absurd (List.eq_of_mem_replicate hMem) (by decide)
  obtain ⟨hSame, hRest⟩ := append_cons_inj_of_not_mem (hBlanks m) (hBlanks n) h
  refine ⟨?_, hRest⟩
  simpa using congrArg List.length hSame

end

/-! ## Tags -/

/-- The characters of an attribute in a tag. -/
def entryChars (entry : String × String) : List Char :=
  ' ' :: (entry.1.toList ++ '=' :: '"' :: (entry.2.toList ++ ['"']))

theorem Attributes.toList_render (attrs : Attributes) :
    attrs.render.toList = attrs.entries.flatMap entryChars := by
  rw [render, String.toList_join, List.flatMap_map]
  congr 1
  funext entry
  simp [entryChars, String.toList_append]

section

variable {s t : List Char} {c d : Char}

/-- Whatever follows an attribute, it determines the attribute. -/
theorem entryChars_append_inj {e f : String × String}
    (he : IsTagName e.1 ∧ '"' ∉ e.2.toList) (hf : IsTagName f.1 ∧ '"' ∉ f.2.toList)
    (h : entryChars e ++ s = entryChars f ++ t) : e = f ∧ s = t := by
  have hEquals : ∀ {name : String}, IsTagName name → '=' ∉ name.toList := fun hName hMem =>
    (hName.2 _ hMem).2 (by decide)
  simp only [entryChars, List.cons_append, List.append_assoc, List.nil_append, List.cons.injEq,
    true_and] at h
  -- the name ends at the sign, and the value at the quote
  obtain ⟨hName, hRest⟩ := append_cons_inj_of_not_mem (hEquals he.1) (hEquals hf.1) h
  obtain ⟨hValue, hEnd⟩ := append_cons_inj_of_not_mem he.2 hf.2 (List.cons.inj hRest).2
  exact ⟨Prod.ext (String.toList_injective hName) (String.toList_injective hValue), hEnd⟩

/-- Attributes are determined by what stands in a tag, if no blank follows them. -/
theorem flatMap_entryChars_inj {es fs : List (String × String)}
    (hes : ∀ e ∈ es, IsTagName e.1 ∧ '"' ∉ e.2.toList)
    (hfs : ∀ f ∈ fs, IsTagName f.1 ∧ '"' ∉ f.2.toList) (hc : c ≠ ' ') (hd : d ≠ ' ')
    (h : es.flatMap entryChars ++ c :: s = fs.flatMap entryChars ++ d :: t) :
    es = fs ∧ c :: s = d :: t := by
  induction es generalizing fs with
  | nil =>
    cases fs with
    | nil => exact ⟨rfl, h⟩
    | cons f fs => exact absurd (List.cons.inj h).1 hc
  | cons e es ih =>
    cases fs with
    | nil => exact absurd (List.cons.inj h).1.symm hd
    | cons f fs =>
      obtain ⟨he, hLater⟩ := List.forall_mem_cons.1 hes
      obtain ⟨hf, hLater'⟩ := List.forall_mem_cons.1 hfs
      rw [List.flatMap_cons, List.flatMap_cons, List.append_assoc, List.append_assoc] at h
      obtain ⟨rfl, hRest⟩ := entryChars_append_inj he hf h
      obtain ⟨rfl, hEnd⟩ := ih hLater hLater' hRest
      exact ⟨rfl, hEnd⟩

/-- The beginning of a tag determines the name and the attributes. -/
theorem tagStart_append_inj {name name' : String} {attrs attrs' : Attributes}
    (hName : IsTagName name) (hName' : IsTagName name')
    (hAttrs : ∀ entry ∈ attrs.entries, IsTagName entry.1 ∧ '"' ∉ entry.2.toList)
    (hAttrs' : ∀ entry ∈ attrs'.entries, IsTagName entry.1 ∧ '"' ∉ entry.2.toList)
    (hc : c ∈ ['>', '/']) (hd : d ∈ ['>', '/'])
    (h : (Node.tagStart name attrs).toList ++ c :: s =
      (Node.tagStart name' attrs').toList ++ d :: t) :
    name = name' ∧ attrs = attrs' ∧ c :: s = d :: t := by
  have hStops : ∀ {n : String}, IsTagName n → ∀ x ∈ n.toList, x ∉ [' ', '>', '/'] := by
    intro n hn x hx
    obtain ⟨hSpace, hOther⟩ := hn.2 x hx
    simp only [List.mem_cons, List.not_mem_nil, or_false, not_or] at hOther ⊢
    refine ⟨?_, hOther.2.1, hOther.2.2.1⟩
    rintro rfl
    exact absurd hSpace (by decide)
  have hBlank : ∀ {x : Char}, x ∈ ['>', '/'] → x ≠ ' ' := by
    rintro x hx rfl
    exact absurd hx (by decide)
  -- the name ends at the blank before an attribute, or where the tag goes on without one
  obtain ⟨x, hx, xs, hRest⟩ := Reading.exists_behind_name attrs hc s
  obtain ⟨y, hy, ys, hRest'⟩ := Reading.exists_behind_name attrs' hd t
  simp only [Node.tagStart, String.toList_append, List.append_assoc, hRest, hRest'] at h
  obtain ⟨hSame, rfl, rfl⟩ := append_cons_inj (hStops hName) (hStops hName') hx hy
    (List.append_cancel_left h)
  rw [← hRest', Attributes.toList_render, Attributes.toList_render] at hRest
  obtain ⟨hEntries, hEnd⟩ := flatMap_entryChars_inj hAttrs hAttrs' (hBlank hc) (hBlank hd) hRest
  exact ⟨String.toList_injective hSame, Attributes.eq_of_entries_eq hEntries, hEnd⟩

end

/-! ## Trees -/

namespace Node

/-- What follows the attributes of an element in its lines. -/
def afterTag (depth : Nat) : Node → List Char
  | empty _ _ => ['/', '>', '\n']
  | text name _ value => '>' :: (value.toList ++ '<' :: '/' :: (name.toList ++ ['>', '\n']))
  | parent name _ children =>
    '>' :: '\n' :: ((renderAll (depth + 1) children).toList ++
      (List.replicate (2 * depth) ' ' ++ '<' :: '/' :: (name.toList ++ ['>', '\n'])))

/-- The lines of an element begin with blanks and with its tag. -/
theorem toList_renderAt (depth : Nat) (node : Node) : (node.renderAt depth).toList =
    List.replicate (2 * depth) ' ' ++
      ((tagStart node.name node.attrs).toList ++ node.afterTag depth) := by
  have hSingle : "/>\n".toList = ['/', '>', '\n'] := rfl
  have hEnd : ">\n".toList = ['>', '\n'] := rfl
  have hAngle : ">".toList = ['>'] := rfl
  have hClose : "</".toList = ['<', '/'] := rfl
  cases node <;> simp [renderAt, afterTag, indent, name, attrs, String.toList_append, hSingle, hEnd,
    hAngle, hClose]

/-- A tag goes on with an angle bracket or a slash. -/
theorem exists_afterTag (depth : Nat) (node : Node) :
    ∃ c ∈ ['>', '/'], ∃ cs, node.afterTag depth = c :: cs := by
  cases node with
  | empty name attrs => exact ⟨'/', by decide, _, rfl⟩
  | text name attrs value => exact ⟨'>', by decide, _, rfl⟩
  | parent name attrs children => exact ⟨'>', by decide, _, rfl⟩

/-- The first line of an element begins with the blanks of its depth and an angle bracket. -/
theorem exists_renderAt_append (depth : Nat) (node : Node) (s : List Char) :
    ∃ rest, (node.renderAt depth).toList ++ s = List.replicate (2 * depth) ' ' ++ '<' :: rest := by
  rw [toList_renderAt, tagStart]
  simp only [String.toList_append, List.append_assoc]
  exact ⟨_, rfl⟩

/-- The lines of elements, and what follows them in an element that is less deep, begin with blanks
and an angle bracket. -/
theorem exists_renderAll_append (depth : Nat) (nodes : List Node) (s : List Char) :
    ∃ n rest, (renderAll (depth + 1) nodes).toList ++ (List.replicate (2 * depth) ' ' ++ '<' :: s) =
      List.replicate n ' ' ++ '<' :: rest := by
  cases nodes with
  | nil => exact ⟨2 * depth, s, rfl⟩
  | cons node nodes =>
    rw [renderAll, String.toList_append, List.append_assoc]
    exact ⟨2 * (depth + 1), exists_renderAt_append (depth + 1) node _⟩

section

variable {a b : Node} {depth : Nat} {s t : List Char}

/-- Whatever follows the lines of an element, they determine its name and its attributes. -/
theorem afterTag_eq_of_renderAt_eq (ha : a.IsClean) (hb : b.IsClean)
    (h : (a.renderAt depth).toList ++ s = (b.renderAt depth).toList ++ t) :
    a.name = b.name ∧ a.attrs = b.attrs ∧ a.afterTag depth ++ s = b.afterTag depth ++ t := by
  obtain ⟨c, hc, cs, hOwn⟩ := a.exists_afterTag depth
  obtain ⟨d, hd, ds, hOther⟩ := b.exists_afterTag depth
  simp only [toList_renderAt, List.append_assoc, hOwn, hOther] at h
  obtain ⟨hName, hAttrs, hRest⟩ := tagStart_append_inj ha.name hb.name ha.attrs hb.attrs hc hd
    (List.append_cancel_left h)
  exact ⟨hName, hAttrs, by rw [hOwn, hOther]; exact hRest⟩

/-- What follows a closing tag is determined. -/
theorem closing_append_inj {name : List Char}
    (h : '/' :: (name ++ '>' :: '\n' :: ([] ++ s)) = '/' :: (name ++ '>' :: '\n' :: ([] ++ t))) :
    s = t := by
  have hEnd := List.append_cancel_left (List.cons.inj h).2
  exact (List.cons.inj (List.cons.inj hEnd).2).2

/-- The text of an element is not what stands where another holds elements. -/
theorem text_ne_parent {name name' : String} {attrs attrs' : Attributes} {value : String}
    {children : List Node} (hText : '<' ∉ value.toList ∧ ¬ IsLineBreak value) :
    (text name attrs value).afterTag depth ++ s ≠
      (parent name' attrs' children).afterTag depth ++ t := by
  intro h
  simp only [afterTag, List.cons_append, List.append_assoc, List.cons.injEq, true_and] at h
  obtain ⟨n, rest, hLines⟩ := exists_renderAll_append depth children
    ('/' :: (name'.toList ++ ('>' :: '\n' :: t)))
  have hBreak : '<' ∉ '\n' :: List.replicate n ' ' := by
    simp [List.mem_replicate]
  -- up to the angle bracket there is only a break, which the text is not
  obtain ⟨hIs, -⟩ := append_cons_inj_of_not_mem hText.1 hBreak
    (h.trans (congrArg ('\n' :: ·) hLines))
  exact hText.2 ⟨n, hIs⟩

/-- Whatever follows the lines of elements in one that is less deep, they determine the elements,
given that the lines of each element determine it. -/
theorem renderAll_append_inj {as bs : List Node}
    (has : ∀ a ∈ as, ∀ {b : Node} {s t : List Char}, (∀ n ∈ b.elements, n.IsClean) →
      (a.renderAt (depth + 1)).toList ++ s = (b.renderAt (depth + 1)).toList ++ t → a = b ∧ s = t)
    (hbs : ∀ b ∈ bs, ∀ n ∈ b.elements, n.IsClean)
    (h : (renderAll (depth + 1) as).toList ++ (List.replicate (2 * depth) ' ' ++ '<' :: s) =
      (renderAll (depth + 1) bs).toList ++ (List.replicate (2 * depth) ' ' ++ '<' :: t)) :
    as = bs ∧ s = t := by
  have hDepth : 2 * depth ≠ 2 * (depth + 1) := by omega
  induction as generalizing bs with
  | nil =>
    cases bs with
    | nil => exact ⟨rfl, (replicate_append_inj h).2⟩
    | cons b bs =>
      -- an element would stand deeper than the closing tag
      rw [renderAll, renderAll, String.toList_append, List.append_assoc] at h
      obtain ⟨rest, hLines⟩ := exists_renderAt_append (depth + 1) b
        ((renderAll (depth + 1) bs).toList ++ (List.replicate (2 * depth) ' ' ++ '<' :: t))
      exact absurd (replicate_append_inj (h.trans hLines)).1 hDepth
  | cons a as ih =>
    cases bs with
    | nil =>
      rw [renderAll, renderAll, String.toList_append, List.append_assoc] at h
      obtain ⟨rest, hLines⟩ := exists_renderAt_append (depth + 1) a
        ((renderAll (depth + 1) as).toList ++ (List.replicate (2 * depth) ' ' ++ '<' :: s))
      exact absurd (replicate_append_inj (h.symm.trans hLines)).1 hDepth
    | cons b bs =>
      obtain ⟨ha, hLater⟩ := List.forall_mem_cons.1 has
      obtain ⟨hb, hLater'⟩ := List.forall_mem_cons.1 hbs
      rw [renderAll, renderAll, String.toList_append, String.toList_append, List.append_assoc,
        List.append_assoc] at h
      obtain ⟨rfl, hRest⟩ := ha hb h
      obtain ⟨rfl, hEnd⟩ := ih hLater hLater' hRest
      exact ⟨rfl, hEnd⟩

/-- Whatever follows the lines of a clean tree, they determine the tree. -/
theorem renderAt_append_inj (ha : ∀ n ∈ a.elements, n.IsClean) (hb : ∀ n ∈ b.elements, n.IsClean)
    (h : (a.renderAt depth).toList ++ s = (b.renderAt depth).toList ++ t) : a = b ∧ s = t := by
  induction a using inductionOn generalizing b depth s t with
  | empty name attrs =>
    obtain ⟨hOwn, -⟩ := forall_elements_iff.1 ha
    obtain ⟨hOther, -⟩ := forall_elements_iff.1 hb
    obtain ⟨rfl, rfl, hRest⟩ := afterTag_eq_of_renderAt_eq hOwn hOther h
    cases b with
    | empty => exact ⟨rfl, List.append_cancel_left hRest⟩
    | text | parent => exact absurd (List.cons.inj hRest).1 (by decide)
  | text name attrs value =>
    obtain ⟨hOwn, -⟩ := forall_elements_iff.1 ha
    obtain ⟨hOther, -⟩ := forall_elements_iff.1 hb
    obtain ⟨rfl, rfl, hRest⟩ := afterTag_eq_of_renderAt_eq hOwn hOther h
    cases b with
    | empty => exact absurd (List.cons.inj hRest).1 (by decide)
    | text name' attrs' value' =>
      simp only [afterTag, List.cons_append, List.append_assoc, List.cons.injEq, true_and] at hRest
      -- the texts end at the closing tags, which are the same
      obtain ⟨hText, hClosing⟩ := append_cons_inj_of_not_mem (hOwn.text value rfl).1
        (hOther.text value' rfl).1 hRest
      obtain rfl : value = value' := String.toList_injective hText
      exact ⟨rfl, closing_append_inj hClosing⟩
    | parent => exact absurd hRest (text_ne_parent (hOwn.text value rfl))
  | parent name attrs children ih =>
    obtain ⟨hOwn, hInside⟩ := forall_elements_iff.1 ha
    obtain ⟨hOther, hInside'⟩ := forall_elements_iff.1 hb
    obtain ⟨rfl, rfl, hRest⟩ := afterTag_eq_of_renderAt_eq hOwn hOther h
    cases b with
    | empty => exact absurd (List.cons.inj hRest).1 (by decide)
    | text name' attrs' value' => exact absurd hRest.symm (text_ne_parent (hOther.text value' rfl))
    | parent name' attrs' children' =>
      simp only [afterTag, List.cons_append, List.append_assoc, List.cons.injEq, true_and] at hRest
      obtain ⟨rfl, hClosing⟩ := renderAll_append_inj
        (fun child hChild _ _ _ => ih child hChild (hInside child hChild)) hInside' hRest
      exact ⟨rfl, closing_append_inj hClosing⟩

end

/-- Two trees whose names, values and texts can be told from what is around them have the same text
exactly when they are equal: with the same attributes in the same order, and without taking an
element that is empty, one that holds an empty text and one that holds an empty list of elements for
each other. -/
theorem render_lossless {a b : Node} (ha : ∀ n ∈ a.elements, n.IsClean)
    (hb : ∀ n ∈ b.elements, n.IsClean) : a.render = b.render ↔ a = b := by
  constructor
  · intro h
    have hLines : (a.renderAt 0).toList ++ [] = (b.renderAt 0).toList ++ [] :=
      congrArg (·.toList ++ []) h
    exact (renderAt_append_inj ha hb hLines).1
  · rintro rfl
    rfl

/-- An element with an empty text inside another is not written as one with an empty list of
elements, even behind attributes with angle brackets and line breaks. -/
theorem render_lossless_empty_contents :
    let attrs : Attributes := ⟨[("k", "x > 0"), ("l", "\n")], by decide⟩
    (parent "r" .empty [text "e" attrs ""]).render ≠
      (parent "r" .empty [parent "e" attrs []]).render := by
  intro attrs hSame
  have hAttrs : ∀ entry ∈ attrs.entries, IsTagName entry.1 ∧ '"' ∉ entry.2.toList :=
    List.forall_mem_cons.2 ⟨by decide, List.forall_mem_singleton.2 (by decide)⟩
  have hRoot : ∀ child : Node, (∀ n ∈ child.elements, n.IsClean) →
      ∀ n ∈ (parent "r" .empty [child]).elements, n.IsClean := fun child hChild =>
    forall_elements_iff.2 ⟨⟨show IsTagName "r" by decide, List.forall_mem_nil _, by simp [value?]⟩,
      List.forall_mem_singleton.2 hChild⟩
  have hText : ∀ n ∈ (text "e" attrs "").elements, n.IsClean :=
    forall_elements_iff.2
      ⟨⟨by decide, hAttrs, by simp [value?, IsLineBreak]⟩, List.forall_mem_nil _⟩
  have hParent : ∀ n ∈ (parent "e" attrs []).elements, n.IsClean :=
    forall_elements_iff.2 ⟨⟨by decide, hAttrs, by simp [value?]⟩, List.forall_mem_nil _⟩
  have hEqual := (render_lossless (hRoot _ hText) (hRoot _ hParent)).1 hSame
  simp at hEqual

end Node

end FormDesign.Xml
