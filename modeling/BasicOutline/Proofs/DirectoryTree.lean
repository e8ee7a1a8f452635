import BasicOutline.Proofs.FieldLookup
import BasicOutline.Proofs.PathNames

/-! Directory trees, seen as what stands at each place below a directory.

A place is given by the names that lead to it. The order in which a directory lists its entries does
not show in what stands where, and the path made of the names leads to what stands at their place.
-/

namespace BasicOutline

namespace Node

/-- The trees that a file system can hold: no directory has an entry twice. -/
inductive WellFormed : Node → Prop where
  | file (content : Utf8.Bytes) : WellFormed (.file content)
  | directory {entries : Entries} (distinct : (entries.map Prod.fst).Nodup)
      (named : ∀ entry ∈ entries, Path.IsName entry.1)
      (inner : ∀ entry ∈ entries, WellFormed entry.2) : WellFormed (.directory entries)

def at? : Node → List Text → Option Node
  | node, [] => some node
  | .file _, _ :: _ => none
  | .directory entries, name :: rest => (entries.lookup name).bind fun node => node.at? rest

mutual

/-- Trees that differ in the order of their entries only. -/
inductive Reordered : Node → Node → Prop where
  | file (content : Utf8.Bytes) : Reordered (.file content) (.file content)
  | directory {first middle second : Entries} (moved : first.Perm middle)
      (inner : AllReordered middle second) : Reordered (.directory first) (.directory second)

inductive AllReordered : Entries → Entries → Prop where
  | nil : AllReordered [] []
  | cons {name : Text} {first second : Node} {rest more : Entries} (head : Reordered first second)
      (tail : AllReordered rest more) :
      AllReordered ((name, first) :: rest) ((name, second) :: more)

end

section Places

variable {entries : Entries} {node found : Node} {name : Text} {names : List Text}

theorem at?_of_mem (distinct : (entries.map Prod.fst).Nodup) (member : (name, node) ∈ entries)
    (names : List Text) : (directory entries).at? (name :: names) = node.at? names := by
  rw [at?, (lookup_eq_some_iff_mem distinct).mpr member, Option.bind_some]

theorem exists_of_at?_cons (formed : (directory entries).WellFormed)
    (stands : (directory entries).at? (name :: names) = some found) :
    ∃ node, (name, node) ∈ entries ∧ node.WellFormed ∧ node.at? names = some found := by
  cases formed with
  | directory distinct named inner =>
    rw [at?, Option.bind_eq_some_iff] at stands
    obtain ⟨node, looked, below⟩ := stands
    have member := (lookup_eq_some_iff_mem distinct).mp looked
    exact ⟨node, member, inner _ member, below⟩

theorem WellFormed.of_at? (formed : node.WellFormed) (stands : node.at? names = some found) :
    found.WellFormed := by
  induction names generalizing node with
  | nil =>
    rw [at?] at stands
    rwa [← Option.some.inj stands]
  | cons first rest ih =>
    cases node with
    | file content => cases stands
    | directory entries =>
      obtain ⟨inner, member, sound, below⟩ := exists_of_at?_cons formed stands
      exact ih sound below

theorem named_of_at? (formed : node.WellFormed) (stands : node.at? names = some found) :
    ∀ name ∈ names, Path.IsName name := by
  induction names generalizing node with
  | nil => nofun
  | cons first rest ih =>
    cases node with
    | file content => cases stands
    | directory entries =>
      obtain ⟨inner, member, sound, below⟩ := exists_of_at?_cons formed stands
      cases formed with
      | directory distinct named _ =>
        intro name present
        rcases List.mem_cons.mp present with same | later
        · rw [same]
          exact named _ member
        · exact ih sound below name later

end Places

section Order

theorem AllReordered.keys_eq {first second : Entries} (reordered : AllReordered first second) :
    first.map Prod.fst = second.map Prod.fst := by
  induction first generalizing second with
  | nil =>
    cases reordered
    rfl
  | cons entry rest ih =>
    cases reordered with
    | cons head tail => rw [List.map_cons, List.map_cons, ih tail]

theorem AllReordered.lookup {first second : Entries} (reordered : AllReordered first second)
    (name : Text) : Option.Rel Reordered (first.lookup name) (second.lookup name) := by
  induction first generalizing second with
  | nil =>
    cases reordered
    exact .none
  | cons entry rest ih =>
    cases reordered with
    | cons head tail =>
      rw [lookup_cons_eq_ite, lookup_cons_eq_ite]
      split
      · exact .some head
      · exact ih tail

theorem AllReordered.exists_of_mem {first second : Entries} (reordered : AllReordered first second)
    {name : Text} {other : Node} (member : (name, other) ∈ second) :
    ∃ node, (name, node) ∈ first ∧ Reordered node other := by
  induction first generalizing second with
  | nil =>
    cases reordered
    cases member
  | cons entry rest ih =>
    cases reordered with
    | cons head tail =>
      rcases List.mem_cons.mp member with same | later
      · cases same
        exact ⟨_, List.mem_cons_self, head⟩
      · obtain ⟨node, present, below⟩ := ih tail later
        exact ⟨node, List.mem_cons_of_mem _ present, below⟩

theorem WellFormed.reordered {first second : Node} (formed : first.WellFormed)
    (reordered : Reordered first second) : second.WellFormed := by
  induction formed generalizing second with
  | file content =>
    cases reordered
    exact .file content
  | directory distinct named inner ih =>
    cases reordered with
    | directory moved all =>
      constructor
      · rw [← all.keys_eq]
        exact (moved.map Prod.fst).nodup_iff.mp distinct
      · intro (name, other) member
        obtain ⟨node, present, -⟩ := all.exists_of_mem member
        exact named (name, node) (moved.mem_iff.mpr present)
      · intro (name, other) member
        obtain ⟨node, present, below⟩ := all.exists_of_mem member
        exact ih (name, node) (moved.mem_iff.mpr present) below

theorem rel_bind {α β γ δ : Type} {R : α → β → Prop} {S : γ → δ → Prop} {first : Option α}
    {second : Option β} {f : α → Option γ} {g : β → Option δ} (related : Option.Rel R first second)
    (step : ∀ a b, first = some a → R a b → Option.Rel S (f a) (g b)) :
    Option.Rel S (first.bind f) (second.bind g) := by
  cases related with
  | none => exact .none
  | some same => exact step _ _ rfl same

/-- In the second tree stands at each place what stands there in the first, reordered. -/
theorem Reordered.at? {first second : Node} (reordered : Reordered first second)
    (formed : first.WellFormed) (names : List Text) :
    Option.Rel Reordered (first.at? names) (second.at? names) := by
  induction names generalizing first second with
  | nil =>
    rw [Node.at?, Node.at?]
    exact .some reordered
  | cons name rest ih =>
    cases reordered with
    | file content => exact .none
    | directory moved inner =>
      cases formed with
      | directory distinct named sound =>
        have there := inner.lookup name
        rw [← lookup_eq_of_perm distinct moved] at there
        apply rel_bind there
        intro node other looked same
        have member := (lookup_eq_some_iff_mem distinct).mp looked
        exact ih same (sound _ member)

theorem Reordered.file_at?_iff {first second : Node} (reordered : Reordered first second)
    (formed : first.WellFormed) {names : List Text} {content : Utf8.Bytes} :
    first.at? names = some (.file content) ↔ second.at? names = some (.file content) := by
  have related := reordered.at? formed names
  generalize first.at? names = one at related
  generalize second.at? names = other at related
  cases related with
  | none => exact Iff.rfl
  | some same =>
    cases same with
    | file own => exact Iff.rfl
    | directory moved inner => exact ⟨nofun, nofun⟩

end Order

end Node

namespace FileSystem

def step (path : Text) (place : List Node × Node) (name : Text) :
    Except FileError (List Node × Node) :=
  match place.2 with
  | .file _ => .error (.notDirectory path)
  | .directory entries =>
    if name = Path.here then .ok place
    else if name = Path.parent then
      match place.1 with
      | [] => .ok place
      | outer :: above => .ok (above, outer)
    else
      match entries.lookup name with
      | some inner => .ok (place.2 :: place.1, inner)
      | none => .error (.notFound path)

inductive Leads : List Node × Node → Text → List Node × Node → Prop where
  | stay {above : List Node} {entries : Entries} :
      Leads (above, .directory entries) Path.here (above, .directory entries)
  | top {entries : Entries} : Leads ([], .directory entries) Path.parent ([], .directory entries)
  | back {outer : Node} {above : List Node} {entries : Entries} :
      Leads (outer :: above, .directory entries) Path.parent (above, outer)
  | down {above : List Node} {entries : Entries} {name : Text} {inner : Node}
      (moves : name ≠ Path.here) (forward : name ≠ Path.parent)
      (looked : entries.lookup name = some inner) :
      Leads (above, .directory entries) name (.directory entries :: above, inner)

section Descent

variable {path : Text} {above : List Node} {node found : Node} {names : List Text}

theorem descend_cons (name : Text) (rest : List Text) :
    descend path above node (name :: rest) =
      (step path (above, node) name).bind fun next => descend path next.1 next.2 rest := by
  cases node with
  | file content => rfl
  | directory entries =>
    by_cases stays : name = Path.here
    · simp only [descend, step, if_pos stays]
      rfl
    · by_cases back : name = Path.parent
      · simp only [descend, step, if_neg stays, if_pos back]
        cases above <;> rfl
      · simp only [descend, step, if_neg stays, if_neg back]
        cases entries.lookup name <;> rfl

/-- The path of a descent is only named in errors. -/
theorem step_eq_ok_iff {place next : List Node × Node} {name : Text} :
    step path place name = .ok next ↔ Leads place name next := by
  obtain ⟨above, node⟩ := place
  constructor
  · intro led
    cases node with
    | file content => cases led
    | directory entries =>
      by_cases stays : name = Path.here
      · simp only [step, if_pos stays] at led
        rw [stays, ← Except.ok.inj led]
        exact .stay
      by_cases back : name = Path.parent
      · simp only [step, if_neg stays, if_pos back] at led
        rw [back]
        cases above with
        | nil =>
          rw [← Except.ok.inj led]
          exact .top
        | cons outer above =>
          rw [← Except.ok.inj led]
          exact .back
      · simp only [step, if_neg stays, if_neg back] at led
        cases looked : entries.lookup name with
        | none =>
          rw [looked] at led
          cases led
        | some inner =>
          rw [looked] at led
          rw [← Except.ok.inj led]
          exact .down stays back looked
  · intro leads
    cases leads with
    | stay => rfl
    | top => rfl
    | back => rfl
    | down moves forward looked => simp only [step, if_neg moves, if_neg forward, looked]

/-- Where the first names lead, the others lead on from there, whatever the path is called. -/
theorem descend_append (led : descend path above node names = .ok found) :
    ∃ outer, ∀ (whole : Text) (more : List Text),
      descend whole above node (names ++ more) = descend whole outer found more := by
  induction names generalizing above node with
  | nil =>
    obtain rfl : node = found := Except.ok.inj led
    exact ⟨above, fun _ _ => rfl⟩
  | cons name rest ih =>
    rw [descend_cons] at led
    cases taken : step path (above, node) name with
    | error failure =>
      rw [taken] at led
      cases led
    | ok next =>
      rw [taken] at led
      obtain ⟨outer, leads⟩ := ih led
      refine ⟨outer, ?_⟩
      intro whole more
      rw [List.cons_append, descend_cons, step_eq_ok_iff.mpr (step_eq_ok_iff.mp taken)]
      exact leads whole more

theorem descend_of_here (led : descend path above node (names ++ [Path.here]) = .ok found) :
    descend path above node names = .ok found := by
  induction names generalizing above node with
  | nil =>
    rw [List.nil_append, descend_cons] at led
    cases node with
    | file content => cases led
    | directory entries => exact led
  | cons name rest ih =>
    rw [List.cons_append, descend_cons] at led
    rw [descend_cons]
    cases taken : step path (above, node) name with
    | error failure =>
      rw [taken] at led
      cases led
    | ok next =>
      rw [taken] at led
      exact ih led

theorem descend_at? (named : ∀ name ∈ names, Path.IsName name)
    (stands : node.at? names = some found) : descend path above node names = .ok found := by
  induction names generalizing above node with
  | nil => exact congrArg Except.ok (Option.some.inj stands)
  | cons name rest ih =>
    cases node with
    | file content => cases stands
    | directory entries =>
      rw [Node.at?, Option.bind_eq_some_iff] at stands
      obtain ⟨inner, looked, below⟩ := stands
      have first := named name List.mem_cons_self
      simp only [descend, if_neg first.not_here, if_neg first.not_parent, looked]
      apply ih _ below
      intro other member
      exact named other (List.mem_cons_of_mem name member)

end Descent

section Find

variable {fs : FileSystem} {root : Text} {entries : Entries} {names : List Text} {found : Node}

theorem entries?_eq_some_iff :
    fs.entries? root = some entries ↔ fs.find root = .ok (.directory entries) := by
  rw [entries?]
  split
  · rename_i listed found
    rw [found]
    simp
  · rename_i other
    constructor
    · nofun
    · intro found
      exact absurd found (other entries)

def origin (fs : FileSystem) (path : Text) : List Text :=
  if Path.isAbsolute path then [] else steps fs.workingDirectory

theorem find_eq {path : Text} (nonempty : path ≠ []) (whole : '\x00' ∉ path) :
    fs.find path = descend path [] (.directory fs.root) (fs.origin path ++ steps path) := by
  have plain : ¬ path.contains '\x00' = true := by simpa using whole
  rw [find, if_neg nonempty, if_neg plain, origin]
  by_cases absolute : Path.isAbsolute path = true
  · rw [if_pos absolute, if_pos absolute, List.nil_append]
  · rw [if_neg absolute, if_neg absolute]

theorem descend_of_find (leads : fs.find root = .ok found) :
    root ≠ [] ∧ '\x00' ∉ root ∧
      descend root [] (.directory fs.root) (fs.origin root ++ steps root) = .ok found := by
  have nonempty : root ≠ [] := by
    intro empty
    rw [find, if_pos empty] at leads
    cases leads
  have whole : '\x00' ∉ root := by
    intro member
    have holds : root.contains '\x00' = true := by simpa using member
    rw [find, if_neg nonempty, if_pos holds] at leads
    cases leads
  exact ⟨nonempty, whole, find_eq nonempty whole ▸ leads⟩

theorem origin_joinNames (nonempty : root ≠ []) (named : ∀ name ∈ names, Path.IsName name) :
    fs.origin (Path.joinNames root names) = fs.origin root := by
  rw [origin, Path.isAbsolute_joinNames nonempty named, origin]

/-- The path made of a root and names leads to what stands at the place below the root. -/
theorem find_joinNames (leads : fs.find root = .ok (.directory entries))
    (formed : (Node.directory entries).WellFormed)
    (stands : (Node.directory entries).at? names = some found) (down : names ≠ []) :
    fs.find (Path.joinNames root names) = .ok found := by
  obtain ⟨nonempty, whole, led⟩ := descend_of_find leads
  have named := Node.named_of_at? formed stands
  have longer : Path.joinNames root names ≠ [] :=
    (Path.prefix_joinNames nonempty named).ne_nil nonempty
  have begins : descend root [] (.directory fs.root) (fs.origin root ++ Path.components root) =
      .ok (.directory entries) := by
    rw [steps] at led
    split at led
    · apply descend_of_here
      rwa [List.append_assoc]
    · rwa [List.append_nil] at led
  obtain ⟨outer, goes⟩ := descend_append begins
  calc
    fs.find (Path.joinNames root names) = descend (Path.joinNames root names) []
        (.directory fs.root) (fs.origin root ++ Path.components root ++ names) := by
      rw [find_eq longer (Path.not_mem_joinNames named whole), origin_joinNames nonempty named,
        Path.steps_joinNames nonempty named down, List.append_assoc]
    _ = descend (Path.joinNames root names) outer (.directory entries) names := goes _ names
    _ = .ok found := descend_at? named stands

end Find

end FileSystem

end BasicOutline
