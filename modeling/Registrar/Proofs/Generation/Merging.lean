import Registrar.Selection

/-! # Merging in any way

Templates may be merged one by one, in groups that are merged afterwards, and more than once. The
result is the same as long as the same templates take part, since a merged usage is determined by
its members, and so is the selection that is made from it.
-/

namespace Registrar

open Markup (TemplateUsage)

variable {p q : TemplateUsage → Prop}

namespace NameSet

/-- A set of exactly the names that some templates have in a category. -/
def Gathers (s : NameSet) (category : TemplateUsage → List String) (p : TemplateUsage → Prop) :
    Prop :=
  ∀ name, name ∈ s ↔ ∃ template, p template ∧ name ∈ category template

namespace Gathers

variable {s s' : NameSet} {category : TemplateUsage → List String}

theorem unique (h : s.Gathers category p) (h' : s'.Gathers category p) : s = s' :=
  NameSet.ext fun name => (h name).trans (h' name).symm

theorem insertAll (h : s.Gathers category p) (template : TemplateUsage) :
    (s.insertAll (category template)).Gathers category fun t => p t ∨ t = template := by
  intro name
  simp [h name, or_and_right, exists_or]

theorem insertAll_names (h : s.Gathers category p) (h' : s'.Gathers category q) :
    (s.insertAll s'.names).Gathers category fun t => p t ∨ q t := by
  intro name
  rw [mem_insertAll, ← mem_def, h name, h' name]
  simp only [or_and_right, exists_or]

theorem exists_mem_iff (h : s.Gathers category p) {q : String → Prop} :
    (∃ raw ∈ s, q raw) ↔ ∃ template, p template ∧ ∃ raw ∈ category template, q raw := by
  constructor
  · rintro ⟨raw, hraw, hq⟩
    obtain ⟨template, ht, hmem⟩ := (h raw).1 hraw
    exact ⟨template, ht, raw, hmem, hq⟩
  · rintro ⟨template, ht, raw, hmem, hq⟩
    exact ⟨raw, (h raw).2 ⟨template, ht, hmem⟩, hq⟩

end Gathers

theorem mem_ofList_filter {s entries : NameSet} {rename : String → String} {name : String} :
    name ∈ ofList ((s.names.map rename).filter entries.contains) ↔
      name ∈ entries ∧ ∃ raw ∈ s, rename raw = name := by
  rw [mem_ofList, List.mem_filter, contains_iff, List.mem_map]
  exact And.comm

end NameSet

namespace MarkupUsage

/-- A usage of exactly the names in some templates, each in its category. -/
structure Collects (usage : MarkupUsage) (p : TemplateUsage → Prop) : Prop where
  components : usage.components.Gathers TemplateUsage.components p
  directives : usage.directives.Gathers TemplateUsage.directives p

variable {usage usage' : MarkupUsage}

theorem Collects.congr (h : usage.Collects p) (heq : ∀ template, p template ↔ q template) :
    usage.Collects q := by
  obtain rfl : p = q := funext fun template => propext (heq template)
  exact h

theorem Collects.unique (h : usage.Collects p) (h' : usage'.Collects p) : usage = usage' := by
  obtain ⟨components, directives⟩ := usage
  obtain ⟨components', directives'⟩ := usage'
  obtain rfl : components = components' := h.components.unique h'.components
  obtain rfl : directives = directives' := h.directives.unique h'.directives
  rfl

theorem collects_empty : empty.Collects fun _ => False :=
  ⟨fun _ => by simp [empty], fun _ => by simp [empty]⟩

theorem Collects.merge (h : usage.Collects p) (template : TemplateUsage) :
    (usage.merge template).Collects fun t => p t ∨ t = template :=
  ⟨h.components.insertAll template, h.directives.insertAll template⟩

theorem Collects.foldl_merge (h : usage.Collects p) (ts : List TemplateUsage) :
    (ts.foldl MarkupUsage.merge usage).Collects fun t => p t ∨ t ∈ ts := by
  induction ts generalizing usage p with
  | nil => exact h.congr fun t => by simp
  | cons t ts ih => exact (ih (h.merge t)).congr fun t => by simp [or_assoc]

theorem collects_ofTemplates (ts : List TemplateUsage) : (ofTemplates ts).Collects (· ∈ ts) :=
  (collects_empty.foldl_merge ts).congr fun t => by simp

def asTemplate (usage : MarkupUsage) : TemplateUsage :=
  ⟨usage.components.names, usage.directives.names⟩

theorem Collects.merge_asTemplate (h : usage.Collects p) (h' : usage'.Collects q) :
    (usage.merge usage'.asTemplate).Collects fun t => p t ∨ q t :=
  ⟨h.components.insertAll_names h'.components, h.directives.insertAll_names h'.directives⟩

end MarkupUsage

/-- A way to merge templates: one by one, or as groups that have been merged by themselves. -/
inductive Merging
  | empty
  | add (group : Merging) (template : TemplateUsage)
  | join (first second : Merging)

namespace Merging

def templates : Merging → List TemplateUsage
  | .empty => []
  | .add group template => group.templates ++ [template]
  | .join first second => first.templates ++ second.templates

def usage : Merging → MarkupUsage
  | .empty => .empty
  | .add group template => group.usage.merge template
  | .join first second => first.usage.merge second.usage.asTemplate

theorem collects (m : Merging) : m.usage.Collects (· ∈ m.templates) := by
  induction m with
  | empty => exact MarkupUsage.collects_empty.congr fun t => by simp [templates]
  | add group template ih => exact (ih.merge template).congr fun t => by simp [templates]
  | join first second ih ih' =>
    exact (ih.merge_asTemplate ih').congr fun t => by simp [templates]

end Merging

namespace Selection

variable {usage : MarkupUsage} {catalog : Catalog} {marker : Char} {name : String}

theorem mem_components_ofUsage : name ∈ (ofUsage usage catalog marker).components ↔
    name ∈ catalog.components ∧ ∃ raw ∈ usage.components, Naming.componentName raw = name :=
  NameSet.mem_ofList_filter

theorem mem_directives_ofUsage : name ∈ (ofUsage usage catalog marker).directives ↔
    name ∈ catalog.directives ∧
      ∃ raw ∈ usage.directives, Naming.directiveName marker raw = name :=
  NameSet.mem_ofList_filter

/-- A selection of exactly those entries of a catalog that some templates name. A name is looked up
in its own category, under the name that the library gives it. -/
structure Reports (selection : Selection) (catalog : Catalog) (marker : Char)
    (p : TemplateUsage → Prop) : Prop where
  mem_components : ∀ name, name ∈ selection.components ↔
    name ∈ catalog.components ∧
      ∃ template, p template ∧ ∃ raw ∈ template.components, Naming.componentName raw = name
  mem_directives : ∀ name, name ∈ selection.directives ↔
    name ∈ catalog.directives ∧
      ∃ template, p template ∧ ∃ raw ∈ template.directives, Naming.directiveName marker raw = name

theorem reports_ofUsage (h : usage.Collects p) (catalog : Catalog) (marker : Char) :
    (ofUsage usage catalog marker).Reports catalog marker p where
  mem_components _ := mem_components_ofUsage.trans (and_congr_right' h.components.exists_mem_iff)
  mem_directives _ := mem_directives_ofUsage.trans (and_congr_right' h.directives.exists_mem_iff)

end Selection

end Registrar
