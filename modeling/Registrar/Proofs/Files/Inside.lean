import Registrar.Proofs.Files.Sights

/-! # Files inside a folder

What stands behind a path is followed from the folder that the path leads to. So a file that is
found at a relative path from there shows that there is such a folder.
-/

namespace Registrar.Files

variable {t : FileTree} {d : Disk} {p : FilePath} {name : String} {names : List String}
  {links links' : Nat} {here there : Location}

theorem FileTree.Walks.follow_eq (h : t.Walks links here names links' there) :
    t.follow true links here names = .ok (there, .folder) := by
  induction h with
  | nil => rw [follow]
  | stay hstay _ ih => rw [follow, if_pos hstay, ih]
  | up _ ih => rw [follow, if_neg (by decide), if_pos rfl, ih]
  | enter hleads hup hsize hlookup _ ih =>
    rw [follow_cons (by simp [hleads]) hup (by omega), hlookup]
    exact ih
  | jump hleads hup hsize hlookup _ ih =>
    rw [follow_cons (by simp [hleads]) hup (by omega), hlookup]
    exact ih

theorem pathNames_ne_nil (text : String) : pathNames text ≠ [] := by
  have hsegments (text segment : List Char) : segmentsFrom segment text ≠ [] := by
    induction text generalizing segment with
    | nil => simp [segmentsFrom]
    | cons c cs ih =>
      rw [segmentsFrom]
      split
      · exact List.cons_ne_nil _ _
      · exact ih _
  simpa [pathNames, segments] using hsegments text.toList []

theorem FilePath.join_ne_empty_of_base {base : FilePath} (h : base.text ≠ "") (name : String) :
    (base.join name).text ≠ "" := by
  unfold join
  split
  · next habsolute =>
    rintro rfl
    simp [isAbsolute] at habsolute
  · split <;> simp [h]

theorem Disk.ne_empty_of_isFolder (h : d.isFolder p = true) : p.text ≠ "" := by
  obtain ⟨location, hlocation⟩ := isFolder_iff.1 h
  exact (of_find_eq_ok (folderAt?_eq_some_iff.1 hlocation)).2.1

/-- If something is found at a relative path behind a path, then the path leads to a folder. -/
theorem Disk.isFolder_of_isFile_join (hname : FilePath.isAbsolute ⟨name⟩ = false)
    (hne : p.text ≠ "") (h : d.isFile (p.join name) = true) : d.isFolder p = true := by
  have hfound : ∃ found, d.find true (p.join name) = .ok found := by
    unfold isFile node at h
    cases hfind : d.find true (p.join name) with
    | error fault =>
      rw [hfind] at h
      cases h
    | ok found => exact ⟨found, rfl⟩
  obtain ⟨found, hfind⟩ := hfound
  obtain ⟨hzero, -, hsize, hfollow⟩ := of_find_eq_ok hfind
  obtain ⟨front, hjoin, hbase⟩ := FilePath.pathNames_join_of_relative hname p
  rw [hjoin, start, FilePath.isAbsolute_join_of_relative hname, ← start] at hfollow
  obtain ⟨links, there, hwalks, -⟩ :=
    FileTree.Walks.of_follow_append (pathNames_ne_nil name) hfollow
  have hpath : d.tree.Walks maxLinks (d.start p) (pathNames p.text) links there := by
    rcases hbase with hbase | hbase <;> rw [hbase]
    · exact hwalks
    · exact hwalks.append (.stay rfl .nil)
  have htext : ∃ behind, (p.join name).text = p.text ++ behind := by
    rw [FilePath.text_join_of_relative hname]
    split
    · exact ⟨name, rfl⟩
    · exact ⟨"/" ++ name, String.append_assoc⟩
  obtain ⟨behind, htext⟩ := htext
  rw [htext] at hzero hsize
  rw [isFolder, node, find_eq (fun hmem => hzero (by simp [hmem])) hne ?_, hpath.follow_eq]
  · rfl
  · rw [String.utf8ByteSize_append] at hsize
    omega

end Registrar.Files
