import Registrar.Config.Search
import Registrar.Proofs.Json.Bounds
import Registrar.Proofs.Json.Skipping

/-! # Layouts of a configuration

A configuration may be laid out in many ways: its fields stand in any order among other members,
with any blanks between them, strings are escaped or not, and what has its standard value may be
left out. Every layout is read as the configuration that it lays out. What is written is one of
them, and since a number that is read has at most 64 bits, whatever is read can be written and read
again.
-/

namespace Registrar.Config

open Registrar.Json Registrar.Json.Reader

def fieldNames : List String :=
  ["libraryRoot", "wrapLimit", "indentSize", "extensions", "ignores", "verbose"]

/-- A member of a layout: a field of the configuration, or any value that no field is named for. -/
inductive LaysOutMember (config : Config) : String × List Char → Prop
  | libraryRoot {root : String} {text : List Char} : config.libraryRoot = some root →
      SpellsString root text → LaysOutMember config ("libraryRoot", text)
  | noLibraryRoot : config.libraryRoot = none →
      LaysOutMember config ("libraryRoot", ['n', 'u', 'l', 'l'])
  | wrapLimit : LaysOutMember config ("wrapLimit", Nat.toDigits 10 config.wrapLimit)
  | indentSize : LaysOutMember config ("indentSize", Nat.toDigits 10 config.indentSize)
  | extensions {text : List Char} : SpellsAll .list SpellsString config.extensions text →
      LaysOutMember config ("extensions", text)
  | ignores {text : List Char} : SpellsAll .list SpellsString config.ignores text →
      LaysOutMember config ("ignores", text)
  | verbose : LaysOutMember config ("verbose", (toString config.verbose).toList)
  | other {name : String} {text : List Char} : name ∉ fieldNames → IsValue text →
      LaysOutMember config (name, text)

/-- The fields that are not among these members have their standard values. -/
structure LeavesOut (config : Config) (names : List String) : Prop where
  libraryRoot : "libraryRoot" ∉ names → config.libraryRoot = standard.libraryRoot
  wrapLimit : "wrapLimit" ∉ names → config.wrapLimit = standard.wrapLimit
  indentSize : "indentSize" ∉ names → config.indentSize = standard.indentSize
  extensions : "extensions" ∉ names → config.extensions = standard.extensions
  ignores : "ignores" ∉ names → config.ignores = standard.ignores
  verbose : "verbose" ∉ names → config.verbose = standard.verbose

/-- A text that is an object whose members are fields of the configuration, each at most once, and
anything else. -/
inductive LaysOut (config : Config) : List Char → Prop
  | mk {members : List (String × List Char)} {x object y : List Char} :
      IsBlanks x → SpellsAll .object SpellsMember members object → IsBlanks y →
      (∀ member ∈ members, LaysOutMember config member) →
      ((members.map Prod.fst).filter (· ∈ fieldNames)).Nodup →
      LeavesOut config (members.map Prod.fst) → LaysOut config (x ++ (object ++ y))

variable {config : Config} {α β : Type} {s t u x y rest : List Char} {names : List String}

/-! ## Reading a layout -/

def draftOf (config : Config) (names : List String) : Draft where
  libraryRoot := if "libraryRoot" ∈ names then some config.libraryRoot else none
  wrapLimit := if "wrapLimit" ∈ names then some config.wrapLimit else none
  indentSize := if "indentSize" ∈ names then some config.indentSize else none
  extensions := if "extensions" ∈ names then some config.extensions else none
  ignores := if "ignores" ∈ names then some config.ignores else none
  verbose := if "verbose" ∈ names then some config.verbose else none

theorem complete_draftOf (h : LeavesOut config names) :
    (draftOf config names).complete = config := by
  have hfield {α : Type} {name : String} {value other : α} (h : name ∉ names → value = other) :
      (if name ∈ names then some value else none).getD other = value := by
    split
    · rfl
    · next hnot => exact (h hnot).symm
  simp only [Draft.complete, draftOf, hfield h.libraryRoot, hfield h.wrapLimit,
    hfield h.indentSize, hfield h.extensions, hfield h.ignores, hfield h.verbose]

theorem draftOf_concat_of_notMem {name : String} (h : name ∉ fieldNames) :
    draftOf config (names ++ [name]) = draftOf config names := by
  simp only [fieldNames, List.mem_cons, List.not_mem_nil, or_false, not_or] at h
  obtain ⟨h₁, h₂, h₃, h₄, h₅, h₆⟩ := h
  simp only [draftOf, List.mem_append, List.mem_singleton, Ne.symm h₁, Ne.symm h₂, Ne.symm h₃,
    Ne.symm h₄, Ne.symm h₅, Ne.symm h₆, or_false]

theorem takes_field {value : Reader α} {a : α} {known : Option α} {name : String}
    {set : Option α → Draft} {d : Draft} (hknown : known = none) (hx : IsBlanks x)
    (h : Takes value t a rest) (hd : set (some a) = d) :
    Takes (do return set (← Draft.field name known value)) (x ++ ':' :: t) d rest := by
  subst hknown hd
  have hfield : Takes (colon >>= fun _ => some <$> value) (x ++ [':'] ++ t) (some a) rest :=
    Takes.bind (takes_colon hx (t ++ rest)) h.map
  rw [List.append_assoc] at hfield
  exact Takes.last hfield (Takes.pure _ rest)

theorem takes_member {name : String} (hx : IsBlanks x) (hy : IsBlanks y)
    (h : LaysOutMember config (name, t)) (hnew : name ∈ fieldNames → name ∉ names)
    (hlimits : config.wrapLimit ≤ maxNatural ∧ config.indentSize ≤ maxNatural)
    (hrest : EndsNumber rest) :
    Takes ((draftOf config names).member name) (x ++ ':' :: (y ++ t))
      (draftOf config (names ++ [name])) rest := by
  cases h with
  | libraryRoot hroot htext =>
    exact takes_field (if_neg (hnew (by decide))) hx (takes_optional hy htext rest)
      (by simp [draftOf, hroot])
  | noLibraryRoot hroot =>
    exact takes_field (if_neg (hnew (by decide))) hx (takes_null hy rest) (by simp [draftOf, hroot])
  | wrapLimit =>
    exact takes_field (if_neg (hnew (by decide))) hx (takes_natural hy hlimits.1 hrest)
      (by simp [draftOf])
  | indentSize =>
    exact takes_field (if_neg (hnew (by decide))) hx (takes_natural hy hlimits.2 hrest)
      (by simp [draftOf])
  | extensions htext =>
    exact takes_field (if_neg (hnew (by decide))) hx (takes_list hy htext rest) (by simp [draftOf])
  | ignores htext =>
    exact takes_field (if_neg (hnew (by decide))) hx (takes_list hy htext rest) (by simp [draftOf])
  | verbose =>
    exact takes_field (if_neg (hnew (by decide))) hx (takes_boolean hy _ rest) (by simp [draftOf])
  | other hother hvalue =>
    rw [draftOf_concat_of_notMem hother]
    unfold Draft.member
    split
    case h_7 =>
      have hskip : Takes (colon >>= fun _ => skipValue >>= fun _ => pure (draftOf config names))
          (x ++ [':'] ++ (y ++ t)) (draftOf config names) rest :=
        Takes.bind (takes_colon hx _)
          (Takes.last (takes_skipValue hy hvalue hrest) (Takes.pure _ _))
      rwa [List.append_assoc] at hskip
    all_goals exact absurd (by decide) hother

theorem exists_cons_of_spellsMember (member : String × List Char) (text : List Char)
    (h : SpellsMember member text) : ∃ u, text = '"' :: u := by
  obtain ⟨key, x, y, hkey, -, -, rfl⟩ := h
  obtain ⟨u, rfl⟩ := hkey.exists_cons
  exact ⟨_, rfl⟩

theorem takes_append_member {member : String × List Char} {f : Draft → Reader α} {a : α}
    (h : SpellsMember member t) (hlaid : LaysOutMember config member)
    (hnew : member.1 ∈ fieldNames → member.1 ∉ names)
    (hlimits : config.wrapLimit ≤ maxNatural ∧ config.indentSize ≤ maxNatural)
    (hrest : EndsNumber (u ++ rest))
    (hbehind : Takes (f (draftOf config (names ++ [member.1]))) u a rest) :
    Takes (key >>= fun name => (draftOf config names).member name >>= f) (t ++ u) a rest := by
  obtain ⟨name, x, y, hname, hx, hy, rfl⟩ := h
  have hone : Takes (key >>= (draftOf config names).member) (name ++ (x ++ ':' :: (y ++ member.2)))
      (draftOf config (names ++ [member.1])) (u ++ rest) :=
    Takes.bind (takes_string hname _) (takes_member hx hy hlaid hnew hlimits hrest)
  have hboth := Takes.bind hone hbehind
  rwa [bind_assoc] at hboth

theorem notMem_of_nodup {name : String} {others : List String}
    (h : ((names ++ name :: others).filter (· ∈ fieldNames)).Nodup) (hfield : name ∈ fieldNames) :
    name ∉ names := by
  rw [List.filter_append, List.filter_cons_of_pos (by simpa using hfield), List.nodup_append] at h
  intro hmem
  exact h.2.2 name (List.mem_filter.2 ⟨hmem, by simpa using hfield⟩) name List.mem_cons_self rfl

theorem takes_members {members : List (String × List Char)} (h : SpellsItems SpellsMember members t)
    (hlaid : ∀ member ∈ members, LaysOutMember config member)
    (hnew : ((names ++ members.map Prod.fst).filter (· ∈ fieldNames)).Nodup)
    (hlimits : config.wrapLimit ≤ maxNatural ∧ config.indentSize ≤ maxNatural) {fuel : Nat}
    (hfuel : members.length ≤ fuel) (rest : List Char) :
    Takes (key >>= fun name => (draftOf config names).member name >>= Draft.members fuel false) t
      (draftOf config (names ++ members.map Prod.fst)) (closing .object :: rest) := by
  induction h generalizing names fuel with
  | @last member item x hmember hx =>
    cases fuel with
    | zero => cases hfuel
    | succ fuel =>
      refine takes_append_member hmember (hlaid member List.mem_cons_self) (notMem_of_nodup hnew)
        hlimits (endsNumber_append hx (endsNumber_closing .object rest)) ?_
      exact Takes.last (takes_hasItem_last .object false hx rest) (Takes.pure _ _)
  | @cons member members item x y text hmember hx hy htext ih =>
    cases fuel with
    | zero => cases hfuel
    | succ fuel =>
      obtain ⟨hmemberlaid, hlaid⟩ := List.forall_mem_cons.1 hlaid
      have hrest : Takes (key >>= fun name =>
          (draftOf config (names ++ [member.1])).member name >>= Draft.members fuel false) text
          (draftOf config (names ++ [member.1] ++ members.map Prod.fst))
          (closing .object :: rest) :=
        ih hlaid (by simpa using hnew) (Nat.le_of_succ_le_succ hfuel)
      rw [List.append_assoc] at hrest
      obtain ⟨u, rfl⟩ := htext.exists_cons exists_cons_of_spellsMember
      have hends : EndsNumber (x ++ ',' :: (y ++ '"' :: u) ++ closing .object :: rest) := by
        rw [List.append_assoc]
        exact endsNumber_append hx (endsNumber_comma _)
      refine takes_append_member hmember hmemberlaid (notMem_of_nodup hnew) hlimits hends ?_
      exact Takes.hasItem_next .object hx hy hrest

/-- The fields of a text, before what is left out gets its standard value. -/
def Draft.reader : Reader Draft := do
  match ← peekToken with
  | some '[' => do
    advance
    let d ← Draft.elements
    closeList
    return d
  | some '\x7b' => do
    advance
    let d ← Draft.members ((← get).rest.length + 1) true {}
    advance
    return d
  | _ => wrongKind "struct Config"

theorem map_wrongKind (g : α → β) (wanted : String) :
    g <$> (wrongKind wanted : Reader α) = wrongKind wanted := by
  unfold wrongKind
  rw [map_bind]
  congr 1
  funext next
  split
  case h_6 | h_7 | h_9 => rfl
  case h_8 =>
    split
    · rw [map_bind]
      rfl
    · rfl
  all_goals
    simp only [map_bind]
    rfl

theorem reader_eq : reader = Draft.complete <$> Draft.reader := by
  unfold reader Draft.reader
  rw [map_bind]
  congr 1
  funext next
  split
  · simp only [map_bind, map_pure]
  · simp only [map_bind, map_pure]
  · next hlist hobject =>
    have hwrong := map_wrongKind Draft.complete "struct Config"
    simp [*]

theorem run_map (g : α → β) (r : Reader α) (source : String) :
    run (g <$> r) source = (run r source).map g := by
  simp only [run, StateT.run', Functor.map, StateT.map, Bind.bind, StateT.bind, Except.bind,
    Except.map, Pure.pure, Except.pure]
  cases hr : r (.ofText source.toList) with
  | error fault => rfl
  | ok result =>
    obtain ⟨x, c⟩ := result
    dsimp only
    cases hpeek : peekToken c with
    | error fault => rfl
    | ok result =>
      obtain ⟨next, c'⟩ := result
      cases next <;> rfl

theorem read_eq_ok_iff {source : String} : read source = .ok config ↔
    ∃ d, run Draft.reader source = .ok d ∧ d.complete = config := by
  rw [read, reader_eq, run_map]
  cases run Draft.reader source <;> simp [Except.map]

theorem run_eq {r : Reader α} {a : α} {source : String} (h : Takes r t a y) (hy : IsBlanks y)
    (hsource : source.toList = t ++ y) : run r source = .ok a := by
  have hstate {r : Reader α} (h : Takes r (t ++ (y ++ [])) a []) :
      r.run' (.ofText source.toList) = .ok a := by
    obtain ⟨place, hplace⟩ := h .start
    rw [List.append_nil, List.append_nil, ← hsource] at hplace
    rw [StateT.run', Cursor.ofText, hplace]
    rfl
  exact hstate (Takes.bind (by simpa using h) (Takes.peekToken hy (by simp) (Takes.pure a [])))

theorem takes_reader {members : List (String × List Char)} (hs : IsBlanks s)
    (h : SpellsAll .object SpellsMember members t)
    (hlaid : ∀ member ∈ members, LaysOutMember config member)
    (hnew : ((members.map Prod.fst).filter (· ∈ fieldNames)).Nodup)
    (hlimits : config.wrapLimit ≤ maxNatural ∧ config.indentSize ≤ maxNatural) (rest : List Char) :
    Takes Draft.reader (s ++ t) (draftOf config (members.map Prod.fst)) rest := by
  have hclose {t : List Char} {fuel : Nat} {d : Draft}
      (h : Takes (Draft.members fuel true {}) t d (closing .object :: rest)) :
      Takes (Draft.members fuel true {} >>= fun d => advance >>= fun _ => pure d)
        (t ++ [closing .object]) d rest :=
    Takes.bind h (Takes.advance (Takes.pure d rest))
  cases h with
  | @empty x hx =>
    refine Takes.token hs (by decide) (Takes.advance (Takes.get fun place => hclose ?_))
    exact Takes.last (takes_hasItem_last .object true hx rest) (Takes.pure _ _)
  | @items _ x text hx hmembers =>
    have hlength := hmembers.length_le exists_cons_of_spellsMember
    refine Takes.token hs (by decide) (Takes.advance (Takes.get fun place => ?_))
    rw [← List.append_assoc]
    refine hclose ?_
    have hread {fuel : Nat} (hfuel : members.length ≤ fuel) :
        Takes (key >>= fun name => (draftOf config []).member name >>= Draft.members fuel false)
          text (draftOf config (members.map Prod.fst)) (closing .object :: rest) :=
      takes_members hmembers hlaid hnew hlimits hfuel rest
    obtain ⟨u, rfl⟩ := hmembers.exists_cons exists_cons_of_spellsMember
    refine Takes.hasItem_first .object hx (hread (Nat.le_trans hlength ?_))
    simp only [List.length_append]
    omega

/-- Every layout of a configuration is read as this configuration. -/
theorem read_of_laysOut {text : String} (h : LaysOut config text.toList)
    (hlimits : config.wrapLimit ≤ maxNatural ∧ config.indentSize ≤ maxNatural) :
    read text = .ok config := by
  generalize htext : text.toList = source at h
  obtain ⟨hx, hobject, hy, hlaid, hnew, hleft⟩ := h
  have hdraft := run_eq (takes_reader hx hobject hlaid hnew hlimits _) hy
    (by rw [htext, List.append_assoc])
  exact read_eq_ok_iff.2 ⟨_, hdraft, complete_draftOf hleft⟩

/-! ## Writing -/

def written (config : Config) : List (String × List Char) :=
  (config.libraryRoot.toList.map fun root => ("libraryRoot", encodeString root)) ++
    [("wrapLimit", Nat.toDigits 10 config.wrapLimit),
      ("indentSize", Nat.toDigits 10 config.indentSize),
      ("extensions", '[' :: commaSeparated (config.extensions.map encodeString) ++ [']']),
      ("ignores", '[' :: commaSeparated (config.ignores.map encodeString) ++ [']']),
      ("verbose", (toString config.verbose).toList)]

theorem encodeAll_strings (texts : List String) :
    Value.encodeAll (texts.map .string) = texts.map encodeString := by
  induction texts with
  | nil => rfl
  | cons text texts ih => rw [List.map_cons, Value.encodeAll, ih]; rfl

theorem encodeMembers_eq (members : List (String × Value)) : Value.encodeMembers members =
    members.map fun member => encodeString member.1 ++ ':' :: member.2.encode := by
  induction members with
  | nil => rfl
  | cons member members ih => rw [List.map_cons, Value.encodeMembers, ih]

theorem toList_render (config : Config) : config.render.toList =
    opening .object :: commaSeparated
      (config.written.map fun member => encodeString member.1 ++ ':' :: member.2) ++
        [closing .object] := by
  have hstring (s : String) : (Value.string s).encode = encodeString s := by rw [Value.encode]
  have hnatural (n : Nat) : (Value.natural n).encode = Nat.toDigits 10 n := by rw [Value.encode]
  have hlist (texts : List String) : (Value.array (texts.map .string)).encode =
      '[' :: commaSeparated (texts.map encodeString) ++ [']'] := by
    rw [Value.encode, encodeAll_strings]
  have hbool (b : Bool) : (Value.bool b).encode = (toString b).toList := by
    cases b <;> (rw [Value.encode]; rfl)
  rw [render, Value.render, String.toList_ofList, toJson, Value.encode, encodeMembers_eq, written]
  simp only [List.map_append, List.map_map, List.map_cons, List.map_nil, hstring, hnatural, hlist,
    hbool, Function.comp_def]
  rfl

theorem laysOutMember_written : ∀ member ∈ config.written, LaysOutMember config member := by
  have hlist (texts : List String) : SpellsAll .list SpellsString texts
      ('[' :: commaSeparated (texts.map encodeString) ++ [']']) :=
    spellsAll_commaSeparated .list spellsString_encodeString texts
  intro member hmember
  simp only [written, List.mem_append, List.mem_map, Option.mem_toList, List.mem_cons,
    List.not_mem_nil, or_false] at hmember
  rcases hmember with ⟨root, hroot, rfl⟩ | rfl | rfl | rfl | rfl | rfl
  · exact .libraryRoot hroot (spellsString_encodeString root)
  · exact .wrapLimit
  · exact .indentSize
  · exact .extensions (hlist config.extensions)
  · exact .ignores (hlist config.ignores)
  · exact .verbose

theorem laysOut_render (config : Config) : LaysOut config config.render.toList := by
  have hobject : SpellsAll .object SpellsMember config.written config.render.toList := by
    rw [toList_render]
    exact spellsAll_commaSeparated .object (fun member => ⟨encodeString member.1, [], [],
      spellsString_encodeString member.1, isBlanks_nil, isBlanks_nil, rfl⟩) config.written
  have hlayout : LaysOut config ([] ++ (config.render.toList ++ [])) := by
    refine .mk isBlanks_nil hobject isBlanks_nil laysOutMember_written ?_ ?_
    · cases hroot : config.libraryRoot <;> simp [written, hroot] <;> decide
    · cases hroot : config.libraryRoot <;> constructor <;> simp [written, hroot, standard]
  rwa [List.nil_append, List.append_nil] at hlayout

/-! ## Limits -/

/-- The numbers that have been read are small enough to be read again. -/
structure Draft.IsKept (d : Draft) : Prop where
  wrapLimit : ∀ n ∈ d.wrapLimit, n ≤ maxNatural
  indentSize : ∀ n ∈ d.indentSize, n ≤ maxNatural

theorem yields_field {value : Reader α} {P : α → Prop} (h : Yields value P) (name : String)
    (known : Option α) : Yields (Draft.field name known value) (∀ a ∈ ·, P a) := by
  unfold Draft.field
  split
  · refine .after fun next => ?_
    dsimp only
    split
    · exact .after fun _ => .fail _
    · exact .fail _
  · exact .after fun _ => h.map fun a ha _ hmem => Option.some.inj hmem ▸ ha

theorem yields_member {d : Draft} (h : d.IsKept) (name : String) :
    Yields (d.member name) Draft.IsKept := by
  unfold Draft.member
  split
  · exact .after fun _ => .pure ⟨h.wrapLimit, h.indentSize⟩
  · exact .bind (yields_field yields_natural _ _) fun _ hn => .pure ⟨hn, h.indentSize⟩
  · exact .bind (yields_field yields_natural _ _) fun _ hn => .pure ⟨h.wrapLimit, hn⟩
  · exact .after fun _ => .pure ⟨h.wrapLimit, h.indentSize⟩
  · exact .after fun _ => .pure ⟨h.wrapLimit, h.indentSize⟩
  · exact .after fun _ => .pure ⟨h.wrapLimit, h.indentSize⟩
  · exact .after fun _ => .after fun _ => .pure h

theorem yields_members (fuel : Nat) (first : Bool) {d : Draft} (h : d.IsKept) :
    Yields (Draft.members fuel first d) Draft.IsKept := by
  induction fuel generalizing first d with
  | zero => exact .fail _
  | succ fuel ih =>
    refine .after fun more => ?_
    split
    · exact .after fun name => .bind (yields_member h name) fun _ hd => ih false hd
    · exact .pure h

theorem yields_element {value : Reader α} {P : α → Prop} (h : Yields value P) (first : Bool) :
    Yields (Draft.element first value) (∀ a ∈ ·, P a) := by
  refine .after fun more => ?_
  split
  · exact h.map fun a ha _ hmem => Option.some.inj hmem ▸ ha
  · exact .pure fun _ hmem => nomatch hmem

theorem yields_elements : Yields Draft.elements Draft.IsKept := by
  refine .after fun _ => .bind (yields_element yields_natural false) fun _ hwrap => ?_
  refine .bind (yields_element yields_natural false) fun _ hindent => ?_
  exact .after fun _ => .after fun _ => .after fun _ => .pure ⟨hwrap, hindent⟩

theorem yields_reader : Yields Draft.reader Draft.IsKept := by
  refine .after fun next => ?_
  split
  · exact .after fun _ => .bind yields_elements fun _ hd => .after fun _ => .pure hd
  · have hstart : Draft.IsKept {} := ⟨(fun _ hmem => nomatch hmem), (fun _ hmem => nomatch hmem)⟩
    exact .after fun _ => .after fun _ =>
      .bind (yields_members _ true hstart) fun _ hd => .after fun _ => .pure hd
  · exact yields_wrongKind _

theorem limits_of_read {text : String} (h : read text = .ok config) :
    config.wrapLimit ≤ maxNatural ∧ config.indentSize ≤ maxNatural := by
  have hgetD {value : Option Nat} {other : Nat} (h : ∀ n ∈ value, n ≤ maxNatural)
      (hother : other ≤ maxNatural) : value.getD other ≤ maxNatural := by
    cases value with
    | none => exact hother
    | some n => exact h n rfl
  obtain ⟨d, hd, rfl⟩ := read_eq_ok_iff.1 h
  have hkept := yields_reader.of_run hd
  exact ⟨hgetD hkept.wrapLimit (by decide), hgetD hkept.indentSize (by decide)⟩

/-- Every layout of a configuration whose numbers have at most 64 bits is read as this
configuration, and so is what is written for it. Whatever is read is read again from what is written
for it. -/
theorem read_layout :
    (∀ config : Config, config.wrapLimit ≤ maxNatural → config.indentSize ≤ maxNatural →
      read config.render = .ok config ∧
        ∀ text : String, LaysOut config text.toList → read text = .ok config) ∧
    ∀ (text : String) (config : Config), read text = .ok config →
      read config.render = .ok config := by
  have hread (config : Config) (hlimits : config.wrapLimit ≤ maxNatural ∧
      config.indentSize ≤ maxNatural) : read config.render = .ok config :=
    read_of_laysOut (laysOut_render config) hlimits
  constructor
  · intro config hwrap hindent
    constructor
    · exact hread config ⟨hwrap, hindent⟩
    · intro text h
      exact read_of_laysOut h ⟨hwrap, hindent⟩
  · intro text config h
    exact hread config (limits_of_read h)

theorem read_layout_indented :
    LaysOut { standard with indentSize := 4 } "\x7b \"other\":[null], \"indentSize\":4\x7d".toList ∧
    read "\x7b \"other\":[null], \"indentSize\":4\x7d" = .ok { standard with indentSize := 4 } ∧
    read (render { standard with indentSize := 4 }) = .ok { standard with indentSize := 4 } := by
  have hspells (name : String) (value : List Char) :
      SpellsMember (name, value) (encodeString name ++ ([] ++ ':' :: ([] ++ value))) :=
    ⟨_, [], [], spellsString_encodeString name, isBlanks_nil, isBlanks_nil, rfl⟩
  have hblank : IsBlanks [' '] := by decide
  have hitems := SpellsItems.cons (hspells "other" ['[', 'n', 'u', 'l', 'l', ']']) isBlanks_nil
    hblank (.last (hspells "indentSize" ['4']) isBlanks_nil)
  have hnull : IsValue ['[', 'n', 'u', 'l', 'l', ']'] :=
    .items .list isBlanks_nil (.last .none .null isBlanks_nil)
  have hlaid : LaysOut { standard with indentSize := 4 }
      "\x7b \"other\":[null], \"indentSize\":4\x7d".toList := by
    refine .mk isBlanks_nil (.items hblank hitems) isBlanks_nil ?_ (by decide) ?_
    · rintro member (_ | ⟨_, _ | ⟨_, ⟨⟩⟩⟩)
      · exact .other (by decide) hnull
      · exact .indentSize
    · constructor <;> simp
  have hconfig := read_layout.1 { standard with indentSize := 4 } (by decide) (by decide)
  exact ⟨hlaid, hconfig.2 _ hlaid, hconfig.1⟩

end Registrar.Config
