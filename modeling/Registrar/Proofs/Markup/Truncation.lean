import Registrar.Proofs.Markup.Points

/-! # Sources that are cut short

A block of the top level goes from a point without open elements to the next one. Where it ends is
told by its own characters. A source that is cut inside of a block is therefore not accepted: its
end would be the end of the block in the whole source, too.
-/

namespace Registrar.Markup

open Registrar.Text

variable {s t u v : Point} {p next : Progress} {before nodes : List Node} {o : Nat}
  {text : List Char}

def InnerStep (s t : Point) : Prop := s.progress.frames ≠ [] ∧ Step s t

/-- An element, a comment or a declaration of the top level, from the point in front of it to the
first point behind it where no element is open. -/
structure Block (s t : Point) : Prop where
  start : s.progress.frames = []
  nonempty : s.text ≠ []
  markup : endsText false s.text = true
  inside : ∃ u, Step s u ∧ Relation.ReflTransGen InnerStep u t
  stop : t.progress.frames = []

/-! ## Where blocks begin and end -/

theorem reaches_of_inner (h : Relation.ReflTransGen InnerStep u t) (hv : Reaches u v)
    (hstop : v.progress.frames = []) : Reaches t v := by
  induction h using Relation.ReflTransGen.head_induction_on with
  | refl => exact hv
  | head hstep _ ih =>
    obtain ⟨hopen, hstep⟩ := hstep
    rcases Relation.ReflTransGen.cases_head hv with rfl | ⟨w, hw, hrest⟩
    · exact absurd hstop hopen
    · obtain rfl := hstep.unique hw
      exact ih hrest

namespace Block

theorem exists_cons (h : Block s t) :
    ∃ c cs, s.text = '<' :: c :: cs ∧ startsMarkup c = true := by
  have hmarkup := h.markup
  unfold endsText at hmarkup
  split at hmarkup
  · next hnil => exact absurd hnil h.nonempty
  · next heq => exact ⟨_, _, heq, hmarkup⟩
  · cases hmarkup
  · cases hmarkup

/-- The last item of a block is not text, for text leaves the elements open. -/
theorem exists_item (h : Block s t) : ∃ (p next : Progress) (o : Nat) (text : List Char)
    (r : Reading Item), Reaches s ⟨p, o, text⟩ ∧ text ≠ [] ∧ p.read o text = .ok r ∧
      (∀ content, r.value ≠ .text content) ∧ p.apply o r.value = .ok next ∧
      t = ⟨next, o + byteCount r.lexeme, r.rest⟩ := by
  obtain ⟨hstart, -, hmarkup, ⟨u, hstep, hinner⟩, hstop⟩ := h
  -- the item at which the block begins, or the last step inside of it
  rcases Relation.ReflTransGen.cases_tail hinner with rfl | ⟨w, hw, hopen, hlast⟩
  · cases hstep with
    | @mk p next o text r hne hr ha =>
      obtain ⟨frames, nodes⟩ := p
      obtain rfl : frames = [] := hstart
      rcases readItem_cases hne (mapError_eq_ok_iff.1 hr) with ⟨hends, -⟩ | ⟨-, htext, -⟩
      · exact absurd (hends.symm.trans hmarkup) Bool.false_ne_true
      · exact ⟨⟨[], nodes⟩, next, o, text, r, .refl, hne, hr, htext, ha, rfl⟩
  · have hinside : Reaches u w := Relation.ReflTransGen.mono (fun _ _ hstep => hstep.2) _ _ hw
    cases hlast with
    | @mk p next o text r hne hr ha =>
      refine ⟨p, next, o, text, r, .head hstep hinside, hne, hr, ?_, ha, rfl⟩
      intro content hv
      rw [hv] at ha
      cases ha
      exact hopen hstop

theorem reaches (h : Block s t) : Reaches s t := by
  obtain ⟨p, next, o, text, r, hreach, hne, hr, -, ha, rfl⟩ := h.exists_item
  exact hreach.tail (.mk hne hr ha)

/-- A block is read so in every longer source. -/
theorem reaches_append (h : Block s t) (more : List Char) :
    Reaches ⟨s.progress, s.offset, s.text ++ more⟩ ⟨t.progress, t.offset, t.text ++ more⟩ := by
  have hstart := h.start
  have hstop := h.stop
  obtain ⟨p, next, o, text, r, hreach, hne, hr, htext, ha, rfl⟩ := h.exists_item
  obtain ⟨⟨frames, before⟩, offset, rest⟩ := s
  obtain rfl : frames = [] := hstart
  have hst := steady_top before rest
  have hnext : next.content ≠ .raw := by
    obtain ⟨frames, nodes⟩ := next
    obtain rfl : frames = [] := hstop
    nofun
  exact hreach.congr_item hst hne hr htext ha hnext more

/-- The end of a block comes in front of every later point without open elements. -/
theorem reaches_stop (h : Block s t) (hv : Reaches s v) (hlt : s.offset < v.offset)
    (hstop : v.progress.frames = []) : Reaches t v := by
  obtain ⟨u, hstep, hinner⟩ := h.inside
  rcases Relation.ReflTransGen.cases_head hv with rfl | ⟨w, hw, hrest⟩
  · exact absurd hlt (Nat.lt_irrefl _)
  · obtain rfl := hstep.unique hw
    exact reaches_of_inner hinner hrest hstop

theorem offset_lt (h : Block s t) : s.offset < t.offset := by
  obtain ⟨p, next, o, text, r, hreach, hne, hr, -, -, rfl⟩ := h.exists_item
  have hle := hreach.offset_le
  have hpos := byteCount_pos (Progress.lexeme_ne_nil_of_read hne hr)
  simp only at hle ⊢
  omega

end Block

/-! ## Accepted sources -/

theorem exists_first_closed (h : Reaches u v) (hstop : v.progress.frames = []) :
    ∃ t, Relation.ReflTransGen InnerStep u t ∧ t.progress.frames = [] ∧ Reaches t v := by
  induction h using Relation.ReflTransGen.head_induction_on with
  | refl => exact ⟨v, .refl, hstop, .refl⟩
  | @head u w hstep hrest ih =>
    by_cases hu : u.progress.frames = []
    · exact ⟨u, .refl, hu, .head hstep hrest⟩
    · obtain ⟨t, ht, hclosed, hreach⟩ := ih
      exact ⟨t, .head ⟨hu, hstep⟩ ht, hclosed, hreach⟩

theorem exists_block (hmarkup : endsText false text = true) (hne : text ≠ [])
    (h : Reaches ⟨⟨[], nodes⟩, o, text⟩ v) (hv : v.text = []) (hstop : v.progress.frames = []) :
    ∃ t, Block ⟨⟨[], nodes⟩, o, text⟩ t ∧ Reaches t v := by
  rcases Relation.ReflTransGen.cases_head h with rfl | ⟨w, hstep, hrest⟩
  · exact absurd hv hne
  · obtain ⟨t, hinner, hclosed, hreach⟩ := exists_first_closed hrest hstop
    exact ⟨t, ⟨rfl, hne, hmarkup, ⟨w, hstep, hinner⟩, hclosed⟩, hreach⟩

/-! ## The nodes of blocks -/

/-- What a block that begins at an offset adds to the finished nodes: at most one node, an element
only if it begins there. -/
def AddsNode (o : Nat) (before nodes : List Node) : Prop :=
  nodes = before ∨ ∃ node, nodes = node :: before ∧
    ∀ start offset children, node = .element start offset children → offset = o

/-- Inside of a block the element of the block is the outermost one. -/
def Within (o : Nat) (before : List Node) (p : Progress) : Prop :=
  (∃ inner f, p.frames = inner ++ [f] ∧ f.offset = o ∧ f.before = before) ∨
    p.frames = [] ∧ AddsNode o before p.nodes

theorem within_of_start {item : Item} (ha : (⟨[], before⟩ : Progress).apply o item = .ok next) :
    Within o before next := by
  cases Progress.takes_of_apply ha with
  | text | comment | interpolation => exact .inr ⟨rfl, .inr ⟨_, rfl, nofun⟩⟩
  | declaration => exact .inr ⟨rfl, .inl rfl⟩
  | closed =>
    refine .inr ⟨rfl, .inr ⟨_, rfl, ?_⟩⟩
    rintro _ _ _ ⟨⟩
    rfl
  | opened => exact .inl ⟨[], _, rfl, rfl, rfl⟩
  | endTag hframes => cases hframes

theorem within_of_apply {o' : Nat} {item : Item} (h : Within o before p) (hopen : p.frames ≠ [])
    (ha : p.apply o' item = .ok next) : Within o before next := by
  rcases h with ⟨inner, f, hframes, ho, hbefore⟩ | ⟨hframes, -⟩
  · obtain ⟨frames, nodes⟩ := p
    obtain rfl : frames = inner ++ [f] := hframes
    cases Progress.takes_of_apply ha with
    | text | comment | interpolation | declaration | closed =>
      exact .inl ⟨inner, f, rfl, ho, hbefore⟩
    | opened => exact .inl ⟨_ :: inner, f, rfl, ho, hbefore⟩
    | endTag hframes =>
      cases inner with
      | nil =>
        cases hframes
        refine .inr ⟨rfl, .inr ⟨_, congrArg _ hbefore, ?_⟩⟩
        rintro _ _ _ ⟨⟩
        exact ho
      | cons g inner =>
        cases hframes
        exact .inl ⟨inner, f, rfl, ho, hbefore⟩
  · exact absurd hframes hopen

theorem within_of_inner (h : Relation.ReflTransGen InnerStep u t)
    (hu : Within o before u.progress) : Within o before t.progress := by
  induction h with
  | refl => exact hu
  | tail _ hstep ih =>
    obtain ⟨hopen, hstep⟩ := hstep
    cases hstep with
    | mk _ _ ha => exact within_of_apply ih hopen ha

theorem Block.addsNode (h : Block s t) :
    AddsNode s.offset s.progress.nodes t.progress.nodes := by
  obtain ⟨hstart, -, -, ⟨u, hstep, hinner⟩, hstop⟩ := h
  cases hstep with
  | @mk p _ _ _ _ _ _ ha =>
    obtain ⟨frames, nodes⟩ := p
    obtain rfl : frames = [] := hstart
    rcases within_of_inner hinner (within_of_start ha) with ⟨inner, f, hframes, -⟩ | ⟨-, hadds⟩
    · simp [hstop] at hframes
    · exact hadds

/-- Every node of the top level is that of a block, unless it is text. -/
theorem exists_block_of_node {node : Node} (htext : ∀ content, node ≠ .text content)
    (h : Reaches s v) (hstart : s.progress.frames = []) (hv : v.text = [])
    (hstop : v.progress.frames = []) (hmem : node ∈ v.progress.nodes) :
    node ∈ s.progress.nodes ∨ ∃ t u, Reaches s t ∧ Block t u ∧
      u.progress.nodes = node :: t.progress.nodes ∧
      ∀ start offset children, node = .element start offset children → offset = t.offset := by
  -- on the bytes that are left, for a block is passed as a whole
  induction hlength : byteCount s.text using Nat.strong_induction_on generalizing s with
  | _ n ih =>
    obtain ⟨⟨frames, nodes⟩, o, text⟩ := s
    obtain rfl : frames = [] := hstart
    rcases Relation.ReflTransGen.cases_head h with rfl | ⟨w, hstep, hrest⟩
    · exact .inl hmem
    · have hadd : w.offset + byteCount w.text = o + byteCount text :=
        Reaches.offset_add (.single hstep)
      cases hstep with
      | @mk _ next _ _ r hne hr ha =>
        rcases readItem_cases hne (mapError_eq_ok_iff.1 hr) with ⟨-, hread⟩ | ⟨hends, -, -⟩
        · obtain ⟨hcontent, -⟩ := readText_spells false hne
          rw [hread, hcontent] at ha
          cases ha
          have hlt : byteCount r.rest < n := by
            have hpos := byteCount_pos (Progress.lexeme_ne_nil_of_read hne hr)
            simp only at hadd hlength
            omega
          rcases ih _ hlt hrest rfl rfl with hmem | ⟨t, u, ht, hblock, hu⟩
          · exact .inl ((List.mem_cons.1 hmem).resolve_left (htext _))
          · exact .inr ⟨t, u, .head (.mk hne hr (by rw [hread, hcontent]; rfl)) ht, hblock, hu⟩
        · obtain ⟨t, hblock, hreach⟩ := exists_block hends hne h hv hstop
          have ht := hblock.reaches
          have hlt : byteCount t.text < n := by
            have hadd := ht.offset_add
            have hlt := hblock.offset_lt
            simp only at hadd hlength hlt
            omega
          rcases ih _ hlt hreach hblock.stop rfl with hmem | ⟨t', u, ht', hblock', hu⟩
          · rcases hblock.addsNode with hsame | ⟨node', hnode, hoffset⟩
            · exact .inl (hsame ▸ hmem)
            · rw [hnode] at hmem
              rcases List.mem_cons.1 hmem with rfl | hmem
              · exact .inr ⟨_, t, .refl, hblock, hnode, hoffset⟩
              · exact .inl hmem
          · exact .inr ⟨t', u, ht.trans ht', hblock', hu⟩

/-! ## Cuts -/

theorem take_two_of_byteCount {c : Char} {cs kept lost : List Char}
    (h : kept ++ lost = '<' :: c :: cs) (htwo : 2 ≤ byteCount kept) :
    kept.take 2 = ['<', c] := by
  match kept with
  | [] => simp at htwo
  | [d] =>
    obtain ⟨hd, -⟩ := List.cons.inj h
    subst hd
    exact absurd htwo (by decide)
  | d :: e :: kept =>
    obtain ⟨hd, h⟩ := List.cons.inj h
    obtain ⟨he, -⟩ := List.cons.inj h
    rw [hd, he]
    rfl

/-- A text that ends inside of a block is not accepted from the point in front of the block on. -/
theorem Block.run_ne_ok {kept lost : List Char} (h : Block s t) (hsplit : s.text = kept ++ lost)
    (htwo : 2 ≤ byteCount kept) (hlast : s.offset + byteCount kept < t.offset) :
    s.progress.run s.offset kept ≠ .ok nodes := by
  intro hrun
  obtain ⟨c, cs, hcs, hc⟩ := h.exists_cons
  have hstart := h.start
  obtain ⟨⟨frames, before⟩, o, text⟩ := s
  obtain rfl : frames = [] := hstart
  simp only at hsplit hcs hrun hlast
  have htake : kept.take 2 = ('<' :: c :: cs).take 2 :=
    take_two_of_byteCount (hsplit.symm.trans hcs) htwo
  have hmarkup : endsText false kept = true := (endsText_congr htake false).trans hc
  have hne : kept ≠ [] := by
    rintro rfl
    cases htake
  obtain ⟨u, hblock, hrest⟩ := exists_block hmarkup hne (exists_reaches_of_run hrun) rfl rfl
  -- in the whole text, too, no element is open behind the block of the cut
  have hwhole := hblock.reaches_append lost
  simp only at hwhole
  rw [← hsplit] at hwhole
  have hfirst := (h.reaches_stop hwhole hblock.offset_lt hblock.stop).offset_le
  have hwithin := hrest.offset_le
  simp only at hfirst hwithin
  omega

def SpansBlock (source : String) (first last : Nat) : Prop :=
  ∃ s t, Reaches ⟨.empty, 0, source.toList⟩ s ∧ Block s t ∧ s.offset = first ∧ t.offset = last

variable {source cut : String} {first last : Nat}

theorem exists_spansBlock_of_node {document : Document} {node : Node}
    (h : Document.read source = .ok document) (hmem : node ∈ document.nodes)
    (htext : ∀ content, node ≠ .text content) :
    ∃ first last, SpansBlock source first last ∧
      ∀ start offset children, node = .element start offset children → offset = first := by
  obtain ⟨nodes, hrun, rfl⟩ := map_eq_ok_iff.1 h
  have hreach := exists_reaches_of_run hrun
  rcases exists_block_of_node htext hreach rfl rfl rfl (List.mem_reverse.2 hmem) with
    hmem | ⟨s, t, hs, hblock, -, hoffset⟩
  · cases hmem
  · exact ⟨s.offset, t.offset, ⟨s, t, hs, hblock, rfl, rfl⟩, hoffset⟩

/-- A comment or a declaration of the top level is a block by itself. -/
theorem spansBlock_of_spells {item : Item} {x rest : List Char}
    (h : Reaches ⟨.empty, 0, source.toList⟩ ⟨⟨[], nodes⟩, first, x ++ rest⟩)
    (hs : SpellsItem false item x) (hitem : item = .declaration ∨ ∃ c, item = .comment c) :
    SpansBlock source first (first + byteCount x) := by
  have htext : ∀ content, item ≠ .text content := by
    rcases hitem with rfl | ⟨c, rfl⟩ <;> nofun
  obtain ⟨next, ha, hnext⟩ : ∃ next, (⟨[], nodes⟩ : Progress).apply first item = .ok next ∧
      next.frames = [] := by
    rcases hitem with rfl | ⟨c, rfl⟩
    · exact ⟨_, rfl, rfl⟩
    · exact ⟨_, rfl, rfl⟩
  have hstep := step_of_spells (p := ⟨[], nodes⟩) nofun hs htext ha rest
  exact ⟨_, _, h, ⟨rfl, by simp [hs.ne_nil], hs.endsText htext rest, ⟨_, hstep, .refl⟩, hnext⟩, rfl,
    rfl⟩

theorem exists_fault_of_spansBlock (hspan : SpansBlock source first last)
    (hcut : cut.toList <+: source.toList) (hfirst : first + 2 ≤ byteCount cut.toList)
    (hlast : byteCount cut.toList < last) : ∃ fault, Document.read cut = .error fault := by
  obtain ⟨s, t, hs, hblock, rfl, rfl⟩ := hspan
  obtain ⟨lost, hlost⟩ := hcut
  obtain ⟨x, hx, ho⟩ := hs.exists_passed
  simp only [Nat.zero_add] at hx ho
  obtain ⟨kept, hsplit, hbytes⟩ := (hs.stands (Stands.start _)).exists_append_of_le
    ⟨cut.toList, hlost, rfl⟩ (by omega)
  have hkept : cut.toList = x ++ kept := by
    rw [hx, hsplit, ← List.append_assoc] at hlost
    exact List.append_cancel_right hlost
  rw [hbytes] at hfirst hlast
  have htwo : 2 ≤ byteCount kept := by omega
  have htake : s.text.take 2 = kept.take 2 := by
    obtain ⟨c, cs, hcs, -⟩ := hblock.exists_cons
    rw [take_two_of_byteCount (hsplit.symm.trans hcs) htwo, hcs]
    rfl
  have hst : Steady Progress.empty false source.toList := steady_top [] _
  have hcontent : s.progress.content ≠ .raw := by
    rw [Progress.content, hblock.start]
    nofun
  -- the run on the cut is in front of the block, too
  have hreach : Reaches ⟨.empty, 0, cut.toList⟩ ⟨s.progress, s.offset, kept⟩ := by
    rw [hkept]
    exact hs.congr_rest hst hcontent hx htake
  cases hread : Document.read cut with
  | error fault => exact ⟨fault, rfl⟩
  | ok document =>
    obtain ⟨nodes, hrun, -⟩ := map_eq_ok_iff.1 hread
    rw [hreach.run_eq] at hrun
    exact absurd hrun (hblock.run_ne_ok hsplit htwo hlast)

/-- A source that is cut inside of a block, behind the two bytes that make it markup, is not
accepted. Every node of the top level that is no text is that of a block, and so is every comment
and every declaration that the reader comes to there. -/
theorem read_truncated (source : String) :
    (∀ cut first last, SpansBlock source first last → cut.toList <+: source.toList →
      first + 2 ≤ byteCount cut.toList → byteCount cut.toList < last →
      ∃ fault, Document.read cut = .error fault) ∧
    (∀ document, Document.read source = .ok document → ∀ node ∈ document.nodes,
      (∀ content, node ≠ .text content) → ∃ first last, SpansBlock source first last ∧
        ∀ start offset children, node = .element start offset children → offset = first) ∧
    ∀ nodes first item x rest, Reaches ⟨.empty, 0, source.toList⟩ ⟨⟨[], nodes⟩, first, x ++ rest⟩ →
      SpellsItem false item x → (item = .declaration ∨ ∃ c, item = .comment c) →
      SpansBlock source first (first + byteCount x) :=
  ⟨fun _ _ _ => exists_fault_of_spansBlock, fun _ h _ => exists_spansBlock_of_node h,
    fun _ _ _ _ _ => spansBlock_of_spells⟩

/-- A template whose end tag lacks the last of its characters. -/
theorem read_truncated_template : SpansBlock "<template><b-x/></template>" 0 27 ∧
    ∃ fault, Document.read "<template><b-x/></template" = .error fault := by
  have hx : SpellsStartTag ⟨"b-x", []⟩ true "<b-x/>".toList :=
    @SpellsStartTag.mk _ _ 'b' "-x".toList _ rfl (List.all_eq_true.1 rfl) (by decide) .selfClose
  have hspan : SpansBlock "<template><b-x/></template>" 0 27 := by
    obtain ⟨hopen, hinside, hclose⟩ :=
      steps_template (.element ⟨"b-x", []⟩ 10 []) [] 0 (.startTag hx) (by simp) rfl []
    have hinner := Relation.ReflTransGen.head (r := InnerStep)
      ⟨by simp [Progress.inTemplate], hinside⟩
      (.single ⟨by simp [Progress.inTemplate, Progress.push], hclose⟩)
    exact ⟨_, _, .refl, ⟨rfl, by decide, rfl, ⟨_, hopen, hinner⟩, rfl⟩, rfl, rfl⟩
  obtain ⟨hcut, -⟩ := read_truncated "<template><b-x/></template>"
  exact ⟨hspan, hcut _ _ _ hspan (by decide) (by decide) (by decide)⟩

end Registrar.Markup
