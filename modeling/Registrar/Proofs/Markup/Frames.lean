import Registrar.Proofs.Markup.Grammar

/-! # Frames and places

The frames of a reader determine the place where its next item stands, and with it how the item is
read and what an element there contains.
-/

namespace Registrar.Markup

open Registrar.Text

variable {p : Place} {frames : List Frame} {before : List Node} {o : Nat} {text : List Char}

def Place.content : Place → Content
  | .compiled => .compiled
  | _ => .verbatim

@[simp] theorem Place.content_ne_raw : p.content ≠ .raw := by
  cases p <;> simp [Place.content]

theorem Place.inside_ne_top {start : StartTag} : p.inside start ≠ .top := by
  unfold Place.inside
  split <;> simp

def InPlace (p : Place) : List Frame → Prop
  | [] => p = .top
  | f :: _ => p ≠ .top ∧ f.content = p.content

theorem InPlace.head_ne_raw (hp : InPlace p frames) : ∀ f ∈ frames.head?, f.content ≠ .raw := by
  cases frames with
  | nil => simp
  | cons f frames =>
    intro g hg
    obtain rfl : f = g := by simpa using hg
    exact hp.2 ▸ Place.content_ne_raw

namespace Progress

theorem read_of_inPlace (hp : InPlace p frames) (text : List Char) :
    (⟨frames, before⟩ : Progress).read o text =
      (readItem p.interpolates text).mapError (⟨·, o⟩) := by
  cases frames with
  | nil => obtain rfl : p = .top := hp; rfl
  | cons f frames =>
    obtain ⟨htop, hc⟩ := hp
    cases p with
    | top => exact absurd rfl htop
    | compiled | verbatim => simp [read, hc, Place.content, Place.interpolates]

theorem contentOf_of_inPlace (hp : InPlace p frames) (start : StartTag) :
    (⟨frames, before⟩ : Progress).contentOf start =
      if p.isRaw start then .raw else (p.inside start).content := by
  cases frames with
  | nil =>
    obtain rfl : p = .top := hp
    by_cases hr : start.tag = templateTag <;> cases hv : start.has verbatimAttribute <;>
      simp [contentOf, Place.isRaw, Place.inside, Place.content, hr, hv]
  | cons f frames =>
    obtain ⟨htop, hc⟩ := hp
    cases hr : isRawText start.tag <;> cases hv : start.has verbatimAttribute <;> cases p <;>
      simp_all [contentOf, Place.isRaw, Place.inside, Place.content]

theorem run_of_read {q next : Progress} {r : Reading Item} (hne : text ≠ [])
    (hr : q.read o text = .ok r) (ha : q.apply o r.value = .ok next) :
    q.run o text = next.run (o + byteCount r.lexeme) r.rest := by
  rw [run, dif_neg hne]
  split
  · next h => rw [hr] at h; cases h
  · next r' h =>
    obtain rfl : r = r' := by rw [hr] at h; cases h; rfl
    rw [ha]

theorem run_error_of_read {q : Progress} {fault : Fault} (hne : text ≠ [])
    (hr : q.read o text = .error fault) : q.run o text = .error fault := by
  rw [run, dif_neg hne]
  split
  · next fault' h => rw [hr] at h; cases h; rfl
  · next h => rw [hr] at h; cases h

theorem run_error_of_apply {q : Progress} {r : Reading Item} {fault : Fault} (hne : text ≠ [])
    (hr : q.read o text = .ok r) (ha : q.apply o r.value = .error fault) :
    q.run o text = .error fault := by
  rw [run, dif_neg hne]
  split
  · next h => rw [hr] at h; cases h
  · next r' h =>
    obtain rfl : r = r' := by rw [hr] at h; cases h; rfl
    rw [ha]

/-- What an item does to a reader that goes on. -/
inductive Takes (q : Progress) (o : Nat) : Item → Progress → Prop
  | text {content : String} : Takes q o (.text content) (q.push (.text content))
  | comment {content : String} : Takes q o (.comment content) (q.push (.comment content))
  | interpolation {content : String} :
      Takes q o (.interpolation content) (q.push (.interpolation content))
  | declaration : Takes q o .declaration q
  | closed {start : StartTag} {selfClosed : Bool} : (selfClosed || isVoid start.tag) = true →
      Takes q o (.startTag start selfClosed) (q.push (.element start o []))
  | opened {start : StartTag} : isVoid start.tag = false →
      Takes q o (.startTag start false) (q.openElement start o)
  | endTag {f : Frame} {outer : List Frame} {name : String} : q.frames = f :: outer →
      f.content = .raw ∨ lowerName name.toList = lowerName f.start.tag.toList →
      Takes q o (.endTag name) (close f outer q.nodes)

theorem takes_of_apply {q next : Progress} {item : Item} (h : q.apply o item = .ok next) :
    q.Takes o item next := by
  cases item with
  | text => cases h; exact .text
  | comment => cases h; exact .comment
  | interpolation => cases h; exact .interpolation
  | declaration => cases h; exact .declaration
  | startTag start selfClosed =>
    simp only [apply] at h
    split at h
    · next hclosed =>
      cases h
      exact .closed hclosed
    · next hopen =>
      cases h
      obtain ⟨rfl, hv⟩ : selfClosed = false ∧ isVoid start.tag = false := by simpa using hopen
      exact .opened hv
  | endTag name =>
    obtain ⟨frames, nodes⟩ := q
    cases frames with
    | nil => cases h
    | cons f outer =>
      simp only [apply] at h
      split at h
      · next hname =>
        cases h
        exact .endTag rfl (by simpa using hname)
      · cases h

theorem run_nil : (⟨[], before⟩ : Progress).run o [] = .ok before.reverse := by
  rw [run, dif_pos rfl]

end Progress

end Registrar.Markup
