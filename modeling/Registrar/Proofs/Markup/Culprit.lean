import Registrar.Proofs.Markup.Points

/-! # What a fault points at

A source is rejected at a point where the reader does not get on. The fault names the construct to
blame and the place where it begins: the innermost open element, or what stands in front of the
reader. The place can be told from line and column.
-/

namespace Registrar.Markup

open Registrar.Text

variable {p next : Progress} {o : Nat} {i : Bool} {text : List Char} {cause : Cause}
  {fault : Fault} {s t : Point} {r : Reading Item}

/-- A reader at a point does not get on; the fault blames what the given text begins with. -/
inductive Culprit : Point → Fault → List Char → Prop
  /-- the innermost open element, at the end of the source or without its end tag behind raw text -/
  | element {f : Frame} {outer : List Frame} {nodes : List Node} {o : Nat}
      {rest s text : List Char} :
      rest = [] ∨ f.content = .raw ∧
        (∀ u, u <:+ rest → endsElement f.start.tag.toList u = false) →
      SpellsStartTag f.start false s →
      Culprit ⟨⟨f :: outer, nodes⟩, o, rest⟩ ⟨.missingEndTag f.start.tag, f.offset⟩ (s ++ text)
  /-- a start tag that is not written to its end -/
  | startTag {p : Progress} {o : Nat} {c : Char} {cs : List Char} {cause : Cause} :
      c.isAlpha = true →
      (∀ start b s, SpellsStartTag start b s → ¬ s <+: '<' :: c :: cs) →
      cause = .unclosedStartTag (String.ofList ((c :: cs).takeWhile isTagChar)) ∨
        cause = .unterminatedValue (String.ofList ((c :: cs).takeWhile isTagChar)) →
      Culprit ⟨p, o, '<' :: c :: cs⟩ ⟨cause, o⟩ ('<' :: c :: cs)
  | namelessEndTag {p : Progress} {o : Nat} {cs : List Char} : StopsAt isBareChar cs →
      Culprit ⟨p, o, '<' :: '/' :: cs⟩ ⟨.missingEndTagName, o⟩ ('<' :: '/' :: cs)
  | unclosedEndTag {p : Progress} {o : Nat} {cs : List Char} :
      cs.takeWhile isBareChar ≠ [] → '>' ∉ cs →
      Culprit ⟨p, o, '<' :: '/' :: cs⟩
        ⟨.unclosedEndTag (String.ofList (cs.takeWhile isBareChar)), o⟩ ('<' :: '/' :: cs)
  /-- an end tag where no element is open -/
  | unexpectedEndTag {nodes : List Node} {o : Nat} {i : Bool} {name : String}
      {e text : List Char} : SpellsItem i (.endTag name) e →
      Culprit ⟨⟨[], nodes⟩, o, e ++ text⟩ ⟨.unexpectedEndTag name, o⟩ (e ++ text)
  /-- an end tag that is not the one of the innermost open element -/
  | mismatchedEndTag {f : Frame} {outer : List Frame} {nodes : List Node} {o : Nat} {i : Bool}
      {name : String} {e text : List Char} : SpellsItem i (.endTag name) e →
      f.content ≠ .raw → lowerName name.toList ≠ lowerName f.start.tag.toList →
      Culprit ⟨⟨f :: outer, nodes⟩, o, e ++ text⟩ ⟨.mismatchedEndTag name f.start.tag, o⟩
        (e ++ text)
  | comment {p : Progress} {o : Nat} {cs : List Char} : ¬ ['-', '-', '>'] <:+: cs →
      Culprit ⟨p, o, '<' :: '!' :: '-' :: '-' :: cs⟩ ⟨.unterminatedComment, o⟩
        ('<' :: '!' :: '-' :: '-' :: cs)
  | declaration {p : Progress} {o : Nat} {c : Char} {cs : List Char} :
      c = '!' ∧ ¬ ['-', '-'] <+: cs ∨ c = '?' → '>' ∉ cs →
      Culprit ⟨p, o, '<' :: c :: cs⟩ ⟨.unterminatedDeclaration, o⟩ ('<' :: c :: cs)
  | interpolation {p : Progress} {o : Nat} {cs : List Char} : p.content = .compiled →
      ¬ ['}', '}'] <:+: cs →
      Culprit ⟨p, o, '{' :: '{' :: cs⟩ ⟨.unterminatedInterpolation, o⟩ ('{' :: '{' :: cs)

theorem Culprit.opener (h : Culprit s fault text) : ['<'] <+: text ∨ ['{', '{'] <+: text := by
  have hlt (cs : List Char) : ['<'] <+: '<' :: cs := ⟨cs, rfl⟩
  cases h with
  | element _ hs =>
    obtain ⟨c, cs, rfl, -⟩ := readStartTag_of_spells hs []
    exact .inl (hlt _)
  | startTag | namelessEndTag | unclosedEndTag | comment | declaration => exact .inl (hlt _)
  | unexpectedEndTag he =>
    obtain ⟨gap, rfl, -⟩ := he.endTag_inv
    exact .inl (hlt _)
  | mismatchedEndTag he =>
    obtain ⟨gap, rfl, -⟩ := he.endTag_inv
    exact .inl (hlt _)
  | interpolation => exact .inr ⟨_, rfl⟩

/-! ## Items that are not read -/

theorem readAttributes_error {tag : String} (h : readAttributes tag text = .error cause) :
    cause = .unclosedStartTag tag ∨ cause = .unterminatedValue tag := by
  fun_induction readAttributes tag text with
  | case1 => cases h; exact .inl rfl
  | case2 => cases h
  | case3 => cases h
  | case4 => cases h; exact .inr rfl
  | case5 c cs _ _ _ a ha ih => exact ih (map_eq_error_iff.1 h)
  | case6 c cs _ _ _ ih => exact ih (map_eq_error_iff.1 h)

theorem readEnclosed_error {opener closer : List Char} {item : List Char → Item} {cause' : Cause}
    (h : readEnclosed opener closer item cause' text = .error cause) :
    cause' = cause ∧ ¬ closer <:+: text := by
  unfold readEnclosed at h
  split at h
  · next hcut =>
    cases h
    exact ⟨rfl, cutAt?_eq_none_iff.1 hcut⟩
  · cases h

theorem culprit_of_readEndTag (h : readEndTag text = .error cause) :
    Culprit ⟨p, o, '<' :: '/' :: text⟩ ⟨cause, o⟩ ('<' :: '/' :: text) := by
  have hsplit : text.takeWhile isBareChar ++ text.dropWhile isBareChar = text :=
    List.takeWhile_append_dropWhile
  unfold readEndTag at h
  split at h
  · next hname =>
    cases h
    rw [hname, List.nil_append] at hsplit
    exact .namelessEndTag (hsplit ▸ stopsAt_dropWhile isBareChar text)
  · next c cs hname =>
    split at h
    · next hcut =>
      cases h
      have hnone : '>' ∉ text.dropWhile isBareChar := by
        simpa [singleton_infix_iff] using cutAt?_eq_none_iff.1 hcut
      rw [← hname]
      refine .unclosedEndTag (by simp [hname]) ?_
      rw [← hsplit, List.mem_append, not_or]
      exact ⟨fun hmem => absurd (List.mem_takeWhile_imp hmem) (by decide), hnone⟩
    · cases h

theorem culprit_of_readStartTag {c : Char} {cs : List Char} (hc : c.isAlpha = true)
    (h : readStartTag (c :: cs) = .error cause) :
    Culprit ⟨p, o, '<' :: c :: cs⟩ ⟨cause, o⟩ ('<' :: c :: cs) := by
  refine .startTag hc ?_ (readAttributes_error (map_eq_error_iff.1 h))
  rintro start b s hs ⟨rest, hrest⟩
  obtain ⟨d, ds, rfl, -, hread⟩ := readStartTag_of_spells hs rest
  have htext : d :: ds ++ rest = c :: cs := (List.cons.inj hrest).2
  rw [htext, h] at hread
  cases hread

theorem culprit_of_readItem (hi : i = true → p.content = .compiled)
    (h : readItem i text = .error cause) : Culprit ⟨p, o, text⟩ ⟨cause, o⟩ text := by
  unfold readItem at h
  split at h
  · obtain ⟨rfl, hclose⟩ := readEnclosed_error h
    exact .comment hclose
  · exact culprit_of_readEndTag h
  · next cs hcomment =>
    obtain ⟨rfl, hclose⟩ := readEnclosed_error h
    refine .declaration (.inl ⟨rfl, ?_⟩) (by rwa [singleton_infix_iff] at hclose)
    rintro ⟨rest, rfl⟩
    exact hcomment rest rfl
  · obtain ⟨rfl, hclose⟩ := readEnclosed_error h
    exact .declaration (.inr rfl) (by rwa [singleton_infix_iff] at hclose)
  · split at h
    · next hc => exact culprit_of_readStartTag hc h
    · cases h
  · split at h
    · next hinterpolates =>
      obtain ⟨rfl, hclose⟩ := readEnclosed_error h
      exact .interpolation (hi hinterpolates) hclose
    · cases h
  · cases h

/-! ## Points where the reader does not get on -/

def Progress.IsOpened (source : List Char) (p : Progress) : Prop :=
  ∀ f ∈ p.frames, ∃ s text, Stands source f.offset (s ++ text) ∧ SpellsStartTag f.start false s

theorem isOpened_of_step {source : List Char} (h : Step s t) (hs : Stands source s.offset s.text)
    (hopened : s.progress.IsOpened source) : t.progress.IsOpened source := by
  cases h with
  | @mk p next o text r hne hr ha =>
    have happ := Progress.read_append hr
    have hspells := exists_spells_of_read hne hr
    obtain ⟨item, lexeme, rest⟩ := r
    obtain ⟨frames, nodes⟩ := p
    cases Progress.takes_of_apply ha with
    | text | comment | interpolation | declaration | closed => exact hopened
    | opened =>
      obtain ⟨i, hitem⟩ := hspells (by simp)
      refine List.forall_mem_cons.2 ⟨⟨lexeme, rest, ?_, hitem.startTag_inv⟩, hopened⟩
      rw [happ]
      exact hs
    | endTag hframes =>
      cases hframes
      exact fun g hg => hopened g (List.mem_cons_of_mem _ hg)

theorem Culprit.of_read {source : List Char} (hs : Stands source o text)
    (hopened : p.IsOpened source) (h : p.read o text = .error fault) :
    ∃ rest, Stands source fault.offset rest ∧ Culprit ⟨p, o, text⟩ fault rest := by
  obtain ⟨frames, nodes⟩ := p
  have hitem (i : Bool) (hi : i = true → (⟨frames, nodes⟩ : Progress).content = .compiled)
      (h : (readItem i text).mapError (fun c => (⟨c, o⟩ : Fault)) = .error fault) :
      ∃ rest, Stands source fault.offset rest ∧ Culprit ⟨⟨frames, nodes⟩, o, text⟩ fault rest := by
    obtain ⟨cause, hcause, rfl⟩ := mapError_eq_error_iff.1 h
    exact ⟨text, hs, culprit_of_readItem hi hcause⟩
  cases frames with
  | nil => exact hitem false nofun h
  | cons f outer =>
    simp only [Progress.read] at h
    split at h
    · next hraw =>
      split at h
      · next hcut =>
        cases h
        obtain ⟨s, rest, hstands, hspells⟩ := hopened f (by simp)
        exact ⟨_, hstands, .element (.inr ⟨hraw, cut?_eq_none_iff.1 hcut⟩) hspells⟩
      · exact hitem false nofun h
      · cases h
    · exact hitem _ of_decide_eq_true h

theorem Culprit.of_apply (hne : text ≠ []) (hr : p.read o text = .ok r)
    (h : p.apply o r.value = .error fault) :
    Culprit ⟨p, o, text⟩ fault text ∧ fault.offset = o := by
  obtain ⟨frames, nodes⟩ := p
  have happ := Progress.read_append hr
  cases hv : r.value with
  | text | comment | interpolation | declaration =>
    rw [hv] at h
    cases h
  | startTag start selfClosed =>
    rw [hv] at h
    simp only [Progress.apply] at h
    split at h <;> cases h
  | endTag name =>
    -- no other item is refused
    obtain ⟨i, he⟩ := exists_spells_of_read hne hr (by simp [hv])
    rw [hv] at h he
    rw [← happ]
    cases frames with
    | nil =>
      cases h
      exact ⟨.unexpectedEndTag he, rfl⟩
    | cons f outer =>
      simp only [Progress.apply] at h
      split at h
      · cases h
      · next hname =>
        cases h
        obtain ⟨hraw, hne⟩ : f.content ≠ .raw ∧
            lowerName name.toList ≠ lowerName f.start.tag.toList := by simpa using hname
        exact ⟨.mismatchedEndTag he hraw hne, rfl⟩

/-- A run that fails gets to a point where the reader does not get on. -/
theorem exists_culprit_of_run {source : List Char} (hs : Stands source o text)
    (hopened : p.IsOpened source) (h : p.run o text = .error fault) :
    ∃ t rest, Reaches ⟨p, o, text⟩ t ∧ Stands source fault.offset rest ∧ Culprit t fault rest := by
  fun_induction Progress.run p o text with
  | case1 => cases h
  | case2 p o f outer hframes =>
    obtain ⟨frames, nodes⟩ := p
    obtain rfl : frames = f :: outer := hframes
    cases h
    obtain ⟨s, rest, hstands, hspells⟩ := hopened f (by simp)
    exact ⟨_, _, .refl, hstands, .element (.inl rfl) hspells⟩
  | case3 p o text hne fault' hr =>
    cases h
    obtain ⟨rest, hstands, hculprit⟩ := Culprit.of_read hs hopened hr
    exact ⟨_, rest, .refl, hstands, hculprit⟩
  | case4 p o text hne r hr fault' ha =>
    cases h
    obtain ⟨hculprit, ho⟩ := Culprit.of_apply hne hr ha
    exact ⟨_, text, .refl, ho ▸ hs, hculprit⟩
  | case5 p o text hne r hr next ha ih =>
    have hstep : Step ⟨p, o, text⟩ ⟨next, o + byteCount r.lexeme, r.rest⟩ := .mk hne hr ha
    obtain ⟨t, rest, hreach, hfault⟩ := ih
      (Reaches.stands (.single hstep) hs) (isOpened_of_step hstep hs hopened) h
    exact ⟨t, rest, .head hstep hreach, hfault⟩

/-- A fault is shown with the line and the column of the construct that it blames, and the place can
be told from these. -/
theorem fault_position (source : String) :
    (∀ fault, Document.read source = .error fault → ∃ t front text,
      Reaches ⟨.empty, 0, source.toList⟩ t ∧ source.toList = front ++ text ∧
        byteCount front = fault.offset ∧ (['<'] <+: text ∨ ['{', '{'] <+: text) ∧
        Culprit t fault text ∧
        fault.message source = fault.cause.message ++ " at " ++
          (toString (front.count '\n' + 1) ++ ":" ++ toString ((lastLine front).length + 1))) ∧
      StrictMonoOn (fun offset => (Position.ofOffset source.toList offset).place)
        {offset | ∃ text, Stands source.toList offset text} := by
  refine ⟨?_, strictMonoOn_place source.toList⟩
  intro fault h
  have hrun : Progress.empty.run 0 source.toList = .error fault := map_eq_error_iff.1 h
  obtain ⟨t, text, hreach, ⟨front, hsource, ho⟩, hculprit⟩ :=
    exists_culprit_of_run (Stands.start _) (by simp [Progress.IsOpened, Progress.empty]) hrun
  refine ⟨t, front, text, hreach, hsource.symm, ho, hculprit.opener, hculprit, ?_⟩
  rw [Fault.message, Position.ofOffset, ← ho, ← hsource, Position.after_append,
    Position.foldl_advance]
  rfl

/-- A start tag that is not closed, in the second line. -/
theorem fault_position_secondLine :
    Document.read "<!--é\n--><p" = .error ⟨.unclosedStartTag "p", 10⟩ ∧
      ∃ t front text, Reaches ⟨.empty, 0, "<!--é\n--><p".toList⟩ t ∧
        "<!--é\n--><p".toList = front ++ text ∧ byteCount front = 10 ∧
        Culprit t ⟨.unclosedStartTag "p", 10⟩ text := by
  have hcomment : SpellsItem false (.comment "é\n") "<!--é\n-->".toList :=
    @SpellsItem.comment _ "é\n".toList (by decide)
  have hreach : Reaches ⟨.empty, 0, "<!--é\n--><p".toList⟩
      ⟨⟨[], [.comment "é\n"]⟩, 10, "<p".toList⟩ :=
    reaches_of_spells (p := .empty) nofun hcomment (by simp) rfl "<p".toList
  have hread : (⟨[], [.comment "é\n"]⟩ : Progress).read 10 "<p".toList =
      .error ⟨.unclosedStartTag "p", 10⟩ := by
    have htag : readStartTag ['p'] = .error (.unclosedStartTag "p") := by
      simp [readStartTag, readAttributes, Except.map, isTagChar, isBlank]
    simp [Progress.read, readItem, htag, Except.mapError]
  have h : Document.read "<!--é\n--><p" = .error ⟨.unclosedStartTag "p", 10⟩ := by
    rw [Document.read, hreach.run_eq, Progress.run_error_of_read (by decide) hread]
    rfl
  obtain ⟨t, front, text, hpoint, hsource, ho, -, hculprit, -⟩ := (fault_position _).1 _ h
  exact ⟨h, t, front, text, hpoint, hsource, ho, hculprit⟩

end Registrar.Markup
