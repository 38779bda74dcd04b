import Registrar.Proofs.Files.Walks

/-! # Parents of paths

The parent of a path is found in its text: it has the same names but for the last one. A walk along
a path therefore passes through where its parent leads. That is the folder around the end of the
walk as long as no name is a link or leads outwards.
-/

namespace Registrar.Files

variable {t : FileTree} {d : Disk} {p q : FilePath} {name : String} {names : List String}
  {links links' : Nat} {here there : Location}

/-! ## The text of a parent -/

theorem segments_of_not_mem {s : List Char} (h : '/' ∉ s) : segments s = [s] :=
  segmentsFrom_of_not_mem h []

theorem segments_slash (a b : List Char) : segments (a ++ '/' :: b) = segments a ++ segments b :=
  segmentsFrom_slash [] a b

theorem not_mem_of_mem_segmentsFrom {segment text s : List Char} (hsegment : '/' ∉ segment)
    (h : s ∈ segmentsFrom segment text) : '/' ∉ s := by
  induction text generalizing segment with
  | nil =>
    obtain rfl : s = segment.reverse := by simpa [segmentsFrom] using h
    simpa using hsegment
  | cons c cs ih =>
    rw [segmentsFrom] at h
    split at h
    · rcases List.mem_cons.1 h with rfl | h
      · simpa using hsegment
      · exact ih List.not_mem_nil h
    · next hc => exact ih (by simp [Ne.symm hc, hsegment]) h

theorem segments_joinSegments {ss : List (List Char)} (hne : ss ≠ []) (h : ∀ s ∈ ss, '/' ∉ s) :
    segments (joinSegments ss) = ss := by
  induction ss with
  | nil => exact absurd rfl hne
  | cons s ss ih =>
    obtain ⟨hs, hss⟩ := List.forall_mem_cons.1 h
    cases ss with
    | nil => exact segments_of_not_mem hs
    | cons s' ss =>
      rw [joinSegments, segments_slash, segments_of_not_mem hs, ih (by simp) hss]
      · rfl
      · simp

theorem joinSegments_prefix (ss after : List (List Char)) :
    joinSegments ss <+: joinSegments (ss ++ after) := by
  induction ss with
  | nil => exact List.nil_prefix
  | cons s ss ih =>
    cases ss with
    | nil => cases after <;> simp [joinSegments]
    | cons s' ss => simpa [joinSegments] using ih

def leads (s : List Char) : Bool := !staysHere (String.ofList s)

theorem leads_eq_false {s : List Char} (h : s = [] ∨ s = ['.']) : leads s = false := by
  rcases h with rfl | rfl <;> decide

namespace FilePath

theorem exists_cons_of_isAbsolute (h : p.isAbsolute = true) : ∃ cs, p.text.toList = '/' :: cs :=
  List.head?_eq_some_iff.1 (by simpa [isAbsolute] using h)

/-- The names in a path that lead on. -/
def way (p : FilePath) : List String := (pathNames p.text).filter fun name => !staysHere name

theorem mem_way : name ∈ p.way ↔ name ∈ pathNames p.text ∧ staysHere name = false := by
  simp [way]

theorem way_join (hname : IsName name) (base : FilePath) :
    (base.join name).way = base.way ++ [name] := by
  obtain ⟨front, hjoin, hbase⟩ := pathNames_join hname.slashless base
  have hfront : base.way = front.filter fun name => !staysHere name := by
    rw [way]
    rcases hbase with hbase | hbase
    · rw [hbase]
    · rw [hbase, List.filter_append, List.filter_cons_of_neg (by decide), List.filter_nil,
        List.append_nil]
  rw [way, hjoin, List.filter_append, ← hfront, List.filter_cons_of_pos (by simp [hname.leads]),
    List.filter_nil]

theorem way_eq (p : FilePath) :
    p.way = ((segments p.text.toList).filter leads).map String.ofList := by
  rw [way, pathNames, List.filter_map]
  rfl

theorem exists_dropNameless (absolute : Bool) (ss : List (List Char)) :
    ∃ dropped, ss = dropped ++ dropNameless absolute ss ∧ dropped.filter leads = [] := by
  induction ss with
  | nil => exact ⟨[], rfl, rfl⟩
  | cons s ss ih =>
    rw [dropNameless]
    split
    · next h =>
      obtain ⟨dropped, hss, hdropped⟩ := ih
      have hs : leads s = false := by
        simp only [Bool.or_eq_true, decide_eq_true_eq, Bool.and_eq_true] at h
        exact leads_eq_false (h.imp_right And.left)
      refine ⟨s :: dropped, congrArg (s :: ·) hss, ?_⟩
      rw [List.filter_cons_of_neg (by simp [hs]), hdropped]
    · exact ⟨[], rfl, rfl⟩

/-- The segments of a path behind the slash in front of an absolute one. -/
def behindRoot (p : FilePath) : List (List Char) :=
  segments (if p.isAbsolute then p.text.toList.drop 1 else p.text.toList)

theorem named_eq (p : FilePath) : p.named = dropNameless p.isAbsolute p.behindRoot.reverse := by
  rw [named, behindRoot]
  cases p.isAbsolute <;> rfl

def spell (absolute : Bool) (ss : List (List Char)) : List Char :=
  if absolute then '/' :: joinSegments ss else joinSegments ss

theorem text_eq (p : FilePath) : p.text.toList = spell p.isAbsolute p.behindRoot := by
  rw [spell, behindRoot, joinSegments_segments]
  cases h : p.isAbsolute with
  | false => rfl
  | true =>
    obtain ⟨cs, hcs⟩ := exists_cons_of_isAbsolute h
    simp [hcs]

theorem filter_segments_joinSegments {ss : List (List Char)} (h : ∀ s ∈ ss, '/' ∉ s) :
    (segments (joinSegments ss)).filter leads = ss.filter leads := by
  by_cases hne : ss = []
  · rw [hne]
    decide
  · rw [segments_joinSegments hne h]

theorem filter_segments_spell {ss : List (List Char)} (h : ∀ s ∈ ss, '/' ∉ s) (absolute : Bool) :
    (segments (spell absolute ss)).filter leads = ss.filter leads := by
  cases absolute with
  | false => exact filter_segments_joinSegments h
  | true =>
    have hroot : segments ('/' :: joinSegments ss) = [] :: segments (joinSegments ss) := rfl
    rw [spell, if_pos rfl, hroot, List.filter_cons_of_neg (by simp [leads_eq_false]),
      filter_segments_joinSegments h]

theorem slash_not_mem_behindRoot : ∀ s ∈ p.behindRoot, '/' ∉ s :=
  fun _ hs => not_mem_of_mem_segmentsFrom List.not_mem_nil hs

theorem way_eq_behindRoot (p : FilePath) :
    p.way = (p.behindRoot.filter leads).map String.ofList := by
  rw [way_eq, text_eq, filter_segments_spell slash_not_mem_behindRoot]

theorem exists_of_parent? (h : p.parent? = some q) : ∃ outer after,
    p.behindRoot = outer ++ after ∧ q.text.toList = spell p.isAbsolute outer ∧
      (after.filter leads).length ≤ 1 := by
  unfold parent? at h
  split at h
  · cases h
  · next s before hnamed =>
    obtain rfl := Option.some.inj h
    obtain ⟨dropped, hss, hdropped⟩ := exists_dropNameless p.isAbsolute p.behindRoot.reverse
    obtain ⟨dropped', hbefore, hdropped'⟩ := exists_dropNameless p.isAbsolute before
    rw [← named_eq, hnamed] at hss
    refine ⟨(dropNameless p.isAbsolute before).reverse, dropped'.reverse ++ s :: dropped.reverse,
      ?_, ?_, ?_⟩
    · generalize dropNameless p.isAbsolute before = outer at hbefore ⊢
      rw [← List.reverse_reverse p.behindRoot, hss, hbefore]
      simp
    · simp [spell]
    · rw [List.filter_append, List.filter_reverse, hdropped', List.filter_cons]
      split <;> simp [List.filter_reverse, hdropped]

theorem text_prefix_of_parent? (h : p.parent? = some q) : q.text.toList <+: p.text.toList := by
  obtain ⟨outer, after, hsegments, htext, -⟩ := exists_of_parent? h
  rw [htext, text_eq p, hsegments]
  cases p.isAbsolute with
  | false => exact joinSegments_prefix outer after
  | true => exact List.cons_prefix_cons.2 ⟨rfl, joinSegments_prefix outer after⟩

theorem isAbsolute_of_parent? (h : p.parent? = some q) : q.isAbsolute = p.isAbsolute := by
  obtain ⟨rest, hrest⟩ := text_prefix_of_parent? h
  obtain ⟨outer, after, -, htext, -⟩ := exists_of_parent? h
  cases hq : q.text.toList with
  | cons c cs => rw [isAbsolute, isAbsolute, ← hrest, hq, List.cons_append, List.head?_cons,
      List.head?_cons]
  | nil =>
    rw [isAbsolute, hq]
    cases habs : p.isAbsolute with
    | false => rfl
    | true => simp [hq, habs, spell] at htext

theorem size_of_parent? (h : p.parent? = some q) : q.text.utf8ByteSize ≤ p.text.utf8ByteSize := by
  obtain ⟨rest, hrest⟩ := text_prefix_of_parent? h
  have htext : p.text = q.text ++ String.ofList rest := by simp [← String.toList_inj, hrest]
  rw [htext, String.utf8ByteSize_append]
  exact Nat.le_add_right _ _

/-- A parent has the same names but for the last one. -/
theorem way_of_parent? (h : p.parent? = some q) :
    ∃ rest, p.way = q.way ++ rest ∧ rest.length ≤ 1 := by
  obtain ⟨outer, after, hsegments, htext, hafter⟩ := exists_of_parent? h
  have hslash : ∀ s ∈ outer, '/' ∉ s := fun s hs =>
    slash_not_mem_behindRoot s (hsegments ▸ List.mem_append_left after hs)
  refine ⟨(after.filter leads).map String.ofList, ?_, by simpa using hafter⟩
  rw [way_eq_behindRoot, hsegments, List.filter_append, List.map_append, way_eq, htext,
    filter_segments_spell hslash]

theorem way_of_parent?_eq_none (h : p.parent? = none) : p.way = [] := by
  unfold parent? at h
  split at h
  · next hnamed =>
    obtain ⟨dropped, hss, hdropped⟩ := exists_dropNameless p.isAbsolute p.behindRoot.reverse
    rw [← named_eq, hnamed, List.append_nil] at hss
    rw [way_eq_behindRoot, ← List.reverse_reverse p.behindRoot, hss, List.filter_reverse, hdropped]
    rfl
  · cases h

theorem ancestors_of_parent?_eq_none (h : p.parent? = none) : p.ancestors = [p] := by
  rw [ancestors]
  split
  · rfl
  · next hsome =>
    rw [h] at hsome
    cases hsome

theorem ancestors_of_parent? (h : p.parent? = some q) : p.ancestors = p :: q.ancestors := by
  rw [ancestors]
  split
  · next hnone =>
    rw [h] at hnone
    cases hnone
  · next hsome =>
    rw [h] at hsome
    rw [Option.some.inj hsome]

end FilePath

/-! ## Where a parent leads -/

namespace FileTree.Walks

theorem of_cons (h : t.Walks links here (name :: names) links' there) :
    ∃ links₁ mid, t.Walks links here [name] links₁ mid ∧
      t.Walks links₁ mid names links' there := by
  have happend : t.Walks links here ([name] ++ names) links' there := h
  exact happend.of_append

theorem filter_iff : t.Walks links here (names.filter fun name => !staysHere name) links' there ↔
    t.Walks links here names links' there := by
  induction names generalizing links here with
  | nil => exact Iff.rfl
  | cons name names ih =>
    cases hstay : staysHere name with
    | true => rw [List.filter_cons_of_neg (by simp [hstay]), ih, cons_of_stays hstay]
    | false =>
      rw [List.filter_cons_of_pos (by simp [hstay])]
      constructor
      · intro h
        obtain ⟨links₁, mid, hname, hnames⟩ := of_cons h
        exact hname.append (ih.1 hnames)
      · intro h
        obtain ⟨links₁, mid, hname, hnames⟩ := of_cons h
        exact hname.append (ih.2 hnames)

end FileTree.Walks

namespace Disk

theorem start_of_parent? (h : p.parent? = some q) : d.start q = d.start p := by
  rw [start, FilePath.isAbsolute_of_parent? h, start]

namespace Enters

/-- The walk along a path passes through where the parent leads. -/
theorem parent (h : d.Enters p links there) (hparent : p.parent? = some q) :
    ∃ links' outer, d.Enters q links' outer := by
  obtain ⟨rest, hway, -⟩ := FilePath.way_of_parent? hparent
  have hwalks := FileTree.Walks.filter_iff.2 h.walks
  rw [← FilePath.way, hway] at hwalks
  obtain ⟨links', outer, hfront, -⟩ := hwalks.of_append
  refine ⟨links', outer, fun hzero => h.zeroless ?_, ?_⟩
  · exact (FilePath.text_prefix_of_parent? hparent).subset hzero
  · rw [start_of_parent? hparent]
    exact FileTree.Walks.filter_iff.1 hfront

end Enters

end Disk

/-! ## Trees without links -/

def FileTree.IsLinkFree (t : FileTree) : Prop := ∀ e ∈ t.entries, ∀ target, e.2 ≠ .link target

theorem FileTree.IsLinkFree.lookup_ne (hplain : t.IsLinkFree) (target : String) :
    t.lookup here ≠ some (.link target) := by
  intro hlookup
  rw [lookup] at hlookup
  split at hlookup
  · cases hlookup
  · obtain ⟨e, hfind, hnode⟩ := Option.map_eq_some_iff.1 hlookup
    exact hplain e (List.mem_of_find?_eq_some hfind) target hnode

theorem FileTree.Walks.eq_of_isLinkFree (hplain : t.IsLinkFree) (hup : ".." ∉ names)
    (h : t.Walks links here names links' there) :
    there = here ++ names.filter fun name => !staysHere name := by
  induction h with
  | nil => simp
  | stay hstay _ ih =>
    rw [List.filter_cons_of_neg (by simp [hstay])]
    exact ih fun hmem => hup (List.mem_cons_of_mem _ hmem)
  | up => exact absurd List.mem_cons_self hup
  | enter hleads _ _ _ _ ih =>
    rw [List.filter_cons_of_pos (by simp [hleads]), List.append_cons]
    exact ih fun hmem => hup (List.mem_cons_of_mem _ hmem)
  | jump _ _ _ hlookup => exact absurd hlookup (hplain.lookup_ne _)

namespace Disk

theorem Enters.eq_of_isLinkFree (hplain : d.tree.IsLinkFree) (hup : ".." ∉ p.way)
    (h : d.Enters p links there) : there = d.start p ++ p.way := by
  refine h.walks.eq_of_isLinkFree hplain fun hmem => hup ?_
  exact FilePath.mem_way.2 ⟨hmem, by decide⟩

theorem Enters.find_join_of_isLinkFree (hplain : d.tree.IsLinkFree) (h : d.Enters p links there)
    (hname : IsName name) (hsize : (p.join name).text.utf8ByteSize ≤ maxPathSize) :
    d.find true (p.join name) =
      match d.tree.lookup (there ++ [name]) with
      | none => .error .notFound
      | some node => .ok (there ++ [name], node) := by
  rw [h.find_join hname hsize, FileTree.follow_name hname]
  cases hlookup : d.tree.lookup (there ++ [name]) with
  | none => rfl
  | some node =>
    cases node with
    | folder | file _ => rfl
    | link target => exact absurd hlookup (hplain.lookup_ne target)

end Disk

end Registrar.Files
