import Mathlib.Data.List.TakeWhile
import Registrar.Proofs.Files.Outer

/-! # Extensions of file names

The extension of a name stands behind its last dot, which has something in front of it. A joined
path has the extension of the name that was joined.
-/

namespace Registrar.Files

variable {name : String} {front behind : List Char}

theorem splitName_of_not_mem {name : List Char} (h : '.' ∉ name) :
    splitName name = (name, none) := by
  have htake : name.reverse.takeWhile (· ≠ '.') = name.reverse := by
    rw [List.takeWhile_eq_self_iff]
    intro c hc
    simpa using ne_of_mem_of_not_mem (List.mem_reverse.1 hc) h
  simp only [splitName, htake, List.reverse_reverse]
  rw [if_pos (by simp)]

theorem splitName_dot (h : '.' ∉ behind) (front : List Char) :
    splitName (front ++ '.' :: behind) =
      if front.isEmpty then (front ++ '.' :: behind, none) else (front, some behind) := by
  have htake : (front ++ '.' :: behind).reverse.takeWhile (· ≠ '.') = behind.reverse := by
    rw [List.reverse_append, List.reverse_cons, List.append_assoc, List.takeWhile_append_of_pos]
    · simp
    · intro c hc
      simpa using ne_of_mem_of_not_mem (List.mem_reverse.1 hc) h
  have hfront : (front ++ '.' :: behind).take
      ((front ++ '.' :: behind).length - behind.length - 1) = front := by
    rw [List.length_append, List.length_cons, show
      front.length + (behind.length + 1) - behind.length - 1 = front.length by omega]
    exact List.take_left
  simp only [splitName, htake, List.reverse_reverse, hfront]

theorem exists_last_dot {name : List Char} (h : '.' ∈ name) :
    ∃ front behind, name = front ++ '.' :: behind ∧ '.' ∉ behind := by
  obtain ⟨before, after, hname, hbefore⟩ :=
    List.eq_append_cons_of_mem (List.mem_reverse.2 h)
  refine ⟨after.reverse, before.reverse, ?_, by simpa using hbefore⟩
  rw [← List.reverse_reverse name, hname]
  simp

theorem splitName_eq_iff {name : List Char} : splitName name = (front, some behind) ↔
    front ≠ [] ∧ name = front ++ '.' :: behind ∧ '.' ∉ behind := by
  constructor
  · intro h
    by_cases hdot : '.' ∈ name
    · obtain ⟨front, behind, rfl, hbehind⟩ := exists_last_dot hdot
      rw [splitName_dot hbehind] at h
      split at h
      · simp at h
      · next hne =>
        obtain ⟨rfl, rfl⟩ : front = _ ∧ behind = _ := by simpa using h
        exact ⟨by simpa using hne, rfl, hbehind⟩
    · rw [splitName_of_not_mem hdot] at h
      simp at h
  · rintro ⟨hne, rfl, hbehind⟩
    rw [splitName_dot hbehind, if_neg (by simpa using hne)]

namespace FilePath

theorem exists_behindRoot_join (hname : IsName name) (base : FilePath) :
    ∃ before, (base.join name).behindRoot = before ++ [name.toList] := by
  have hsegments := segments_of_not_mem hname.slashless
  have htext : (base.join name).text.toList = name.toList ∨
      ∃ cs, (base.join name).text.toList = cs ++ '/' :: name.toList := by
    rw [text_join hname.slashless]
    split
    · next hlast =>
      rcases List.eq_nil_or_concat base.text.toList with hnil | ⟨cs, c, hcs⟩
      · exact .inl (by simp [hnil])
      · obtain rfl : c = '/' := by simpa [hcs] using hlast
        exact .inr ⟨cs, by simp [hcs]⟩
    · exact .inr ⟨base.text.toList, by simp⟩
  rcases htext with htext | ⟨cs, htext⟩
  · have habs : (base.join name).isAbsolute = false := by
      rw [isAbsolute, htext]
      exact isAbsolute_of_not_mem hname.slashless
    refine ⟨[], ?_⟩
    rw [behindRoot, habs, if_neg Bool.false_ne_true, htext, hsegments, List.nil_append]
  · cases habs : (base.join name).isAbsolute with
    | false =>
      refine ⟨segments cs, ?_⟩
      rw [behindRoot, habs, if_neg Bool.false_ne_true, htext, segments_slash, hsegments]
    | true =>
      cases cs with
      | nil =>
        refine ⟨[], ?_⟩
        rw [behindRoot, habs, if_pos rfl, htext, List.nil_append, List.drop_one, List.tail_cons,
          hsegments, List.nil_append]
      | cons c cs =>
        refine ⟨segments cs, ?_⟩
        rw [behindRoot, habs, if_pos rfl, htext, List.cons_append, List.drop_one, List.tail_cons,
          segments_slash, hsegments]

theorem fileName?_join (hname : IsName name) (base : FilePath) :
    (base.join name).fileName? = some name.toList := by
  obtain ⟨before, hbefore⟩ := exists_behindRoot_join hname base
  have hleads : name ≠ "" ∧ name ≠ "." := by simpa [staysHere] using hname.leads
  have hne : name.toList ≠ [] := by simpa using hleads.1
  have hdot : name.toList ≠ ['.'] := fun h => hleads.2 (String.toList_injective h)
  have hdots : name.toList ≠ ['.', '.'] := fun h => hname.inward (String.toList_injective h)
  rw [fileName?, named_eq, hbefore, List.reverse_append, List.reverse_singleton,
    List.singleton_append, dropNameless, if_neg (by simp [hne, hdot])]
  exact if_neg (by simp [hdot, hdots])

theorem extension?_join_eq_some_iff (hname : IsName name) (base : FilePath) {extension : String} :
    (base.join name).extension? = some extension ↔ ∃ front, front ≠ "" ∧
      name = front ++ "." ++ extension ∧ '.' ∉ extension.toList := by
  have hsplit : (base.join name).extension? = some extension ↔
      ∃ front, splitName name.toList = (front, some extension.toList) := by
    rw [extension?, fileName?_join hname, Option.bind_some, Option.map_eq_some_iff]
    constructor
    · rintro ⟨behind, hbehind, rfl⟩
      exact ⟨(splitName name.toList).1, Prod.ext rfl (by simpa using hbehind)⟩
    · rintro ⟨front, hfront⟩
      exact ⟨extension.toList, by rw [hfront], by simp⟩
  simp only [hsplit, splitName_eq_iff]
  constructor
  · rintro ⟨front, hne, hname, hdot⟩
    exact ⟨String.ofList front, by simpa using hne, by simp [← String.toList_inj, hname], hdot⟩
  · rintro ⟨front, hne, rfl, hdot⟩
    exact ⟨front.toList, by simpa using hne, by simp, hdot⟩

end FilePath

end Registrar.Files
