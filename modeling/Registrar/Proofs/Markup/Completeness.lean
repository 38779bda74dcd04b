import Registrar.Proofs.Markup.EndTag
import Registrar.Proofs.Markup.Frames

/-! # Reading undoes writing

Whatever spelling of a tree in normal form a source is, reading the source gives the tree back.
The frames of the reader stay as they are while it reads siblings, so that the siblings behind an
element are read as if the element was not there.
-/

namespace Registrar.Markup

open Registrar.Text

variable {p : Place} {frames : List Frame} {before : List Node} {o : Nat} {item : Item}
  {s text rest : List Char}

/-- Text ends in front of every other item. -/
theorem SpellsItem.endsText {i : Bool} (h : SpellsItem i item s) (ht : ∀ t, item ≠ .text t)
    (rest : List Char) : endsText i (s ++ rest) = true := by
  cases h with
  | text => exact absurd rfl (ht _)
  | comment => rfl
  | interpolation hi => exact hi
  | declaration hc => rcases hc with ⟨rfl, -⟩ | rfl <;> rfl
  | startTag h =>
    obtain ⟨c, cs, rfl, hc, -⟩ := readStartTag_of_spells h rest
    simp [Markup.endsText, startsMarkup, hc]
  | endTag => rfl

theorem SpellsItem.head? {i : Bool} (h : SpellsItem i item s) (ht : ∀ t, item ≠ .text t) :
    s.head? = some '<' ∨ s.head? = some '{' ∧ ∃ w, item = .interpolation w := by
  cases h with
  | text => exact absurd rfl (ht _)
  | interpolation => exact .inr ⟨rfl, _, rfl⟩
  | startTag h => cases h; exact .inl rfl
  | _ => exact .inl rfl

/-- What follows the siblings at a place: nothing at the top level, else an end tag. -/
def Follows (rest : List Char) : Prop := rest = [] ∨ ∃ cs, rest = '<' :: '/' :: cs

theorem Follows.cases (h : Follows rest) (i : Bool) :
    endsText i rest = true ∧ ∀ c ∈ rest.head?, c = '<' := by
  rcases h with rfl | ⟨cs, rfl⟩
  · exact ⟨rfl, by simp⟩
  · exact ⟨rfl, by simp⟩

/-- Siblings that may follow a text begin with an item that is not text. -/
theorem Spells.first {ns : List Node} (h : Spells p o true ns text) :
    text = [] ∨ ∃ item s rest, text = s ++ rest ∧ SpellsItem p.interpolates item s ∧
      (∀ t, item ≠ .text t) ∧ ∀ w, item = .interpolation w → .interpolation w ∈ ns.head? := by
  cases h with
  | nil => exact .inl rfl
  | comment h | interpolation h | declaration h | closed h | raw h | element h =>
    exact .inr ⟨_, _, _, rfl, h, nofun, by simp⟩

/-- Text ends in front of such siblings, and its last character does not hide that. -/
theorem Spells.after_text {ns : List Node} (h : Spells p o true ns text) (hrest : Follows rest) :
    endsText p.interpolates (text ++ rest) = true ∧
      ∀ c ∈ (text ++ rest).head?, startsMarkup c = false ∧
        (c = '{' → ∃ w, .interpolation w ∈ ns.head?) := by
  rcases h.first with rfl | ⟨item, s, text, rfl, hs, ht, hw⟩
  · obtain ⟨hends, hhead⟩ := hrest.cases p.interpolates
    refine ⟨hends, fun c hc => ?_⟩
    obtain rfl := hhead c hc
    exact ⟨by decide, by simp⟩
  · rw [List.append_assoc]
    refine ⟨hs.endsText ht _, fun c hc => ?_⟩
    rw [List.head?_append_of_ne_nil _ hs.ne_nil] at hc
    rcases hs.head? ht with hh | ⟨hh, w, rfl⟩
    · obtain rfl : c = '<' := by simpa [hh, eq_comm] using hc
      exact ⟨by decide, by simp⟩
    · obtain rfl : c = '{' := by simpa [hh, eq_comm] using hc
      exact ⟨by decide, fun _ => ⟨w, hw w rfl⟩⟩

theorem endsText_of_plain {t u : List Char} (ht : IsPlainText p t) (hu : u <:+ t) (hne : u ≠ [])
    (hrest : ∀ c ∈ rest.head?, startsMarkup c = false ∧ (c = '{' → t.getLast? ≠ some '{')) :
    endsText p.interpolates (u ++ rest) = false := by
  obtain ⟨-, hmarkup, hbrace⟩ := ht
  -- the two characters that would end the text both stand in it, or are split by its end
  have hpair : ∀ x y cs, u ++ rest = x :: y :: cs → [x, y] <:+: t ∨
      t.getLast? = some x ∧ y ∈ rest.head? := by
    intro x y cs hcs
    rcases u with _ | ⟨a, _ | ⟨b, u⟩⟩
    · exact absurd rfl hne
    · obtain ⟨rfl, rfl⟩ : a = x ∧ rest = y :: cs := by simpa using hcs
      obtain ⟨t, rfl⟩ := hu
      exact .inr ⟨by simp, by simp⟩
    · obtain ⟨rfl, rfl, -⟩ : a = x ∧ b = y ∧ u ++ rest = cs := by simpa using hcs
      exact .inl (List.IsInfix.trans ⟨[], u, rfl⟩ hu.isInfix)
  unfold endsText
  split
  · next h => exact absurd (List.append_eq_nil_iff.1 h).1 hne
  · next c cs h =>
    rcases hpair _ _ _ h with hin | ⟨-, hc⟩
    · exact by_contra fun hc => hmarkup c (by simpa using hc) hin
    · exact (hrest c hc).1
  · next cs h =>
    rcases hpair _ _ _ h with hin | ⟨hlast, hc⟩
    · exact by_contra fun hi => hbrace (by simpa using hi) hin
    · exact absurd hlast ((hrest '{' hc).2 rfl)
  · rfl

theorem readItem_of_plain {t : List Char} (hne : t ≠ [])
    (ht : ∀ u, u <:+ t → u ≠ [] → endsText p.interpolates (u ++ rest) = false)
    (hrest : endsText p.interpolates rest = true) :
    readItem p.interpolates (t ++ rest) = .ok ⟨.text (String.ofList t), t, rest⟩ := by
  rw [readItem_eq_readText (ht t (List.suffix_refl t) hne)]
  obtain ⟨c, t, rfl⟩ := List.exists_cons_of_ne_nil hne
  have hcut := cut?_append hrest fun u hu => ht u (hu.trans (List.suffix_cons c t))
  simp only [readText, List.cons_append, hcut]

/-! ## Steps of the reader -/

namespace Progress

theorem run_item {next : Progress} (hp : InPlace p frames) (hne : s ≠ [])
    (hr : readItem p.interpolates (s ++ rest) = .ok ⟨item, s, rest⟩)
    (ha : (⟨frames, before⟩ : Progress).apply o item = .ok next) :
    (⟨frames, before⟩ : Progress).run o (s ++ rest) = next.run (o + byteCount s) rest :=
  run_of_read (r := ⟨item, s, rest⟩) (by simp [hne]) (by rw [read_of_inPlace hp, hr]; rfl) ha

theorem run_startTag {start : StartTag} (hp : InPlace p frames)
    (hs : SpellsItem p.interpolates (.startTag start false) s) (hv : isVoid start.tag = false)
    (rest : List Char) : (⟨frames, before⟩ : Progress).run o (s ++ rest) =
      (⟨⟨start, o, if p.isRaw start then .raw else (p.inside start).content, before⟩ :: frames,
        []⟩ : Progress).run (o + byteCount s) rest := by
  refine run_item hp hs.ne_nil (readItem_of_spells hs (by simp) rest) ?_
  simp [apply, hv, openElement, contentOf_of_inPlace hp]

theorem run_endTag {f : Frame} {name : String} (hp : InPlace p (f :: frames))
    (hs : SpellsItem p.interpolates (.endTag name) s) (hc : Closes false f.start.tag name)
    (rest : List Char) : (⟨f :: frames, before⟩ : Progress).run o (s ++ rest) =
      (close f frames before).run (o + byteCount s) rest := by
  refine run_item hp hs.ne_nil (readItem_of_spells hs (by simp) rest) ?_
  obtain ⟨n, m, hnm, hlower, hm⟩ := hc
  obtain rfl : m = [] := by simpa using hm
  simp [apply, hnm, hlower]

theorem run_raw {f : Frame} {name : String} {t e : List Char} (hf : f.content = .raw)
    (htag : ∀ c ∈ f.start.tag.toList, isTagChar c = true)
    (ht : AreRawContent f.start.tag (rawChildren t)) (he : SpellsItem false (.endTag name) e)
    (hc : Closes true f.start.tag name) (rest : List Char) :
    (⟨f :: frames, []⟩ : Progress).run o (t ++ (e ++ rest)) =
      (close f frames (rawChildren t)).run (o + byteCount t + byteCount e) rest := by
  have hread : readEndTag ((e ++ rest).drop 2) = .ok ⟨.endTag name, e, rest⟩ := by
    obtain ⟨gap, rfl, hne, hn, hs, hg⟩ := he.endTag_inv
    simpa using readEndTag_of_spells hne hn hs hg rest
  rw [run_rawText hf, cut?_rawContent htag ht he hc rest]
  simp only [hread]

/-- Siblings at a place are read in front of whatever may follow them. -/
theorem run_spells {b : Bool} {ns : List Node} (h : Spells p o b ns text) (hn : AreNormal p ns)
    (hp : InPlace p frames) (hrest : Follows rest) :
    (⟨frames, before⟩ : Progress).run o (text ++ rest) =
      (⟨frames, ns.reverse ++ before⟩ : Progress).run (o + byteCount text) rest := by
  induction h generalizing frames before rest with
  | nil => simp
  | @text p o t s text ns hs h ih =>
    obtain ⟨hplain, hnext, hns⟩ := hn
    obtain ⟨rfl, hne⟩ := hs.text_inv
    obtain ⟨hends, hhead⟩ := h.after_text hrest
    have hread : readItem p.interpolates (t.toList ++ (text ++ rest)) =
        .ok ⟨.text t, t.toList, text ++ rest⟩ := by
      have := readItem_of_plain hne (fun u hu hu' => endsText_of_plain hplain hu hu' ?_) hends
      · rwa [String.ofList_toList] at this
      · intro c hc
        refine ⟨(hhead c hc).1, fun hbrace => ?_⟩
        obtain ⟨w, hw⟩ := (hhead c hc).2 hbrace
        exact hnext _ hw
    rw [List.append_assoc, run_item hp hne hread rfl, push, ih hns hp hrest]
    simp [Nat.add_assoc]
  | comment hs h ih | interpolation hs h ih =>
    rw [List.append_assoc, run_item hp hs.ne_nil (readItem_of_spells hs (by simp) _) rfl,
      push, ih hn.2.2 hp hrest]
    simp [Nat.add_assoc]
  | declaration hs h ih =>
    rw [List.append_assoc, run_item hp hs.ne_nil (readItem_of_spells hs (by simp) _) rfl,
      ih hn hp hrest]
    simp [Nat.add_assoc]
  | @closed p o b selfClosed start s text ns hs hclosed h ih =>
    have happly : (⟨frames, before⟩ : Progress).apply o (.startTag start selfClosed) =
        .ok ⟨frames, .element start o [] :: before⟩ := by
      simp [apply, hclosed, push]
    rw [List.append_assoc, run_item hp hs.ne_nil (readItem_of_spells hs (by simp) _) happly,
      ih hn.2.2 hp hrest]
    simp [Nat.add_assoc]
  | @raw p o b start name s t e text ns hs hv hr he hc h ih =>
    obtain ⟨⟨-, hcontent⟩, -, hns⟩ := hn
    rw [if_neg (by simp [hv]), if_pos hr] at hcontent
    simp only [List.append_assoc]
    rw [run_startTag hp hs hv, if_pos hr,
      run_raw (f := ⟨start, o, .raw, before⟩) rfl hs.startTag_inv.isTagChar hcontent he hc, close,
      reverse_rawChildren, ih hns hp hrest]
    simp [Nat.add_assoc]
  | @element p o b start name s t e text children ns hs hv hr hchildren he hc h ihc ih =>
    obtain ⟨⟨-, hcontent⟩, -, hns⟩ := hn
    rw [if_neg (by simp [hv]), if_neg (by simp [hr])] at hcontent
    have hin : InPlace (p.inside start)
        (⟨start, o, (p.inside start).content, before⟩ :: frames) :=
      ⟨Place.inside_ne_top, rfl⟩
    obtain ⟨gap, hgap, -⟩ := he.endTag_inv
    simp only [List.append_assoc]
    rw [run_startTag hp hs hv, if_neg (by simp [hr]),
      ihc hcontent hin (.inr ⟨_, by rw [hgap]; rfl⟩), run_endTag hin he hc, close, ih hns hp hrest]
    simp [Nat.add_assoc]

end Progress

/-- Reading a spelling of a tree in normal form gives the tree. -/
theorem read_of_spells {nodes : List Node} {source : String} (hn : AreNormal .top nodes)
    (h : Spells .top 0 false nodes source.toList) : Document.read source = .ok ⟨nodes⟩ := by
  have hrun : (⟨[], []⟩ : Progress).run 0 (source.toList ++ []) = _ :=
    Progress.run_spells h hn rfl (.inl rfl)
  rw [List.append_nil, List.append_nil, Progress.run_nil, List.reverse_reverse] at hrun
  rw [Document.read, Progress.empty, hrun]
  rfl

/-- A text that ends in `<` in front of an interpolation, below two elements. -/
theorem read_of_spells_nested :
    Document.read "<template><p a='1'>x<{{ y }}</p ></TEMPLATE>" = .ok ⟨[.element ⟨"template", []⟩ 0
      [.element ⟨"p", [⟨"a", some "1"⟩]⟩ 10 [.text "x<", .interpolation "y"]]]⟩ := by
  refine read_of_spells ?_ ?_
  · simp [AreNormal, Node.IsNormal, StartTag.IsNormal, Attribute.IsNormal, IsPlainText,
      Node.MayPrecede, isVoid, voidTags, Place.isRaw, templateTag, Place.inside, StartTag.has,
      StartTag.attribute?, verbatimAttribute, isRawText, rawTextTags, lowerName,
      List.infix_cons_iff, Place.interpolates, isBlank, trim, isWhiteSpace]
  · have hx : SpellsItem true (.text "x<") ['x', '<'] := .text (by decide)
    have hy : SpellsItem true (.interpolation "y") ['{', '{', ' ', 'y', ' ', '}', '}'] :=
      .interpolation (w := [' ', 'y', ' ']) rfl (by decide)
    have ha : SpellsAttribute ⟨"a", some "1"⟩ ['a', '=', '\'', '1', '\''] ['>'] :=
      @SpellsAttribute.valued ['a'] [] [] _ _ _ (by decide) (List.all_eq_true.1 rfl) (by simp)
        (by simp) (.quoted (v := ['1']) (.inr rfl) (by decide))
    have hp : SpellsItem true (.startTag ⟨"p", [⟨"a", some "1"⟩]⟩ false)
        ['<', 'p', ' ', 'a', '=', '\'', '1', '\'', '>'] :=
      .startTag (@SpellsStartTag.mk _ _ 'p' [] _ rfl (List.all_eq_true.1 rfl) (by decide)
        (.gap (.inl rfl) (.cons ha .close)))
    have hp' : SpellsItem true (.endTag "p") ['<', '/', 'p', ' ', '>'] :=
      @SpellsItem.endTag _ ['p'] [' '] (by decide) (List.all_eq_true.1 rfl) (by decide) (by decide)
    have inner := Spells.element (p := .compiled) (o := 10) (b := false) hp rfl rfl
      (.text hx (.interpolation hy .nil)) hp' ⟨['p'], [], rfl, rfl, .inl rfl⟩ .nil
    have ht : SpellsItem false (.startTag ⟨"template", []⟩ false)
        ['<', 't', 'e', 'm', 'p', 'l', 'a', 't', 'e', '>'] :=
      .startTag (@SpellsStartTag.mk _ _ 't' ['e', 'm', 'p', 'l', 'a', 't', 'e'] _ rfl
        (List.all_eq_true.1 rfl) (by decide) .close)
    have ht' : SpellsItem true (.endTag "TEMPLATE")
        ['<', '/', 'T', 'E', 'M', 'P', 'L', 'A', 'T', 'E', '>'] :=
      @SpellsItem.endTag _ ['T', 'E', 'M', 'P', 'L', 'A', 'T', 'E'] [] (by decide)
        (List.all_eq_true.1 rfl) (by decide) (by decide)
    have outer := Spells.element (p := .top) (o := 0) (b := false) ht rfl rfl inner ht'
      ⟨['T', 'E', 'M', 'P', 'L', 'A', 'T', 'E'], [], rfl, rfl, .inl rfl⟩ .nil
    simpa using outer

end Registrar.Markup
