import BasicOutline.Proofs.DirectoryTree

/-! Trees of one shape, and the paths that lead through them.

Following a path looks at names only, so it goes alike in trees that differ in the contents of their
files, and ends at a place that the path alone decides. A path that does not end where the contents
differ reads the same in both. -/

namespace BasicOutline

namespace Node

mutual

def shape : Node → Node
  | .file _ => .file []
  | .directory entries => .directory (shapes entries)

def shapes : List (Text × Node) → List (Text × Node)
  | [] => []
  | (name, node) :: rest => (name, shape node) :: shapes rest

end

theorem shapes_eq_map (entries : Entries) :
    shapes entries = entries.map fun entry => (entry.1, entry.2.shape) := by
  induction entries with
  | nil => rfl
  | cons entry rest ih => rw [shapes, ih, List.map_cons]

theorem lookup_shapes (entries : Entries) (name : Text) :
    (shapes entries).lookup name = (entries.lookup name).map shape := by
  induction entries with
  | nil => rfl
  | cons entry rest ih =>
    rw [shapes, lookup_cons_eq_ite, lookup_cons_eq_ite, ih]
    split <;> rfl

/-- Trees of one shape whose files have the same contents, but for the file at a place. -/
structure AlikeBut (place : List Text) (first second : Node) : Prop where
  shape_eq : first.shape = second.shape
  elsewhere : ∀ names content, names ≠ place →
    first.at? names = some (.file content) → second.at? names = some (.file content)

theorem at?_append (node : Node) (names more : List Text) :
    node.at? (names ++ more) = (node.at? names).bind fun inner => inner.at? more := by
  induction names generalizing node with
  | nil => rw [List.nil_append, at?, Option.bind_some]
  | cons name rest ih =>
    cases node with
    | file content => rfl
    | directory entries =>
      rw [List.cons_append, at?, at?, Option.bind_assoc]
      congr 1
      funext inner
      exact ih inner

end Node

namespace FileSystem

def placeOf (fs : FileSystem) (path : Text) : List Text :=
  ((fs.origin path ++ steps path).foldl (Path.pass true) []).reverse

/-- A descent from a root: the names passed, the last one first, the directories around a node, and
the node. -/
inductive Trail (root : Node) : List Text → List Node → Node → Prop where
  | start : Trail root [] [] root
  | down {passed : List Text} {above : List Node} {entries : Entries} {name : Text} {inner : Node}
      (trail : Trail root passed above (.directory entries)) (forward : name ≠ Path.parent)
      (looked : entries.lookup name = some inner) :
      Trail root (name :: passed) (.directory entries :: above) inner

section Trails

variable {root node found : Node} {passed : List Text} {above : List Node} {path : Text}

theorem Trail.at? (trail : Trail root passed above node) :
    root.at? passed.reverse = some node := by
  induction trail with
  | start => rw [List.reverse_nil, Node.at?]
  | down trail forward looked ih =>
    rw [List.reverse_cons, Node.at?_append, ih, Option.bind_some, Node.at?, looked,
      Option.bind_some, Node.at?]

theorem Trail.step {name : Text} {next : List Node × Node} (nonempty : name ≠ [])
    (trail : Trail root passed above node) (leads : Leads (above, node) name next) :
    Trail root (Path.pass true passed name) next.1 next.2 := by
  have moves : ¬ (Path.parent = [] ∨ Path.parent = Path.here) := by decide
  cases leads with
  | stay => exact trail
  | top =>
    cases trail
    exact .start
  | back =>
    cases trail with
    | @down passed _ _ last _ outer forward looked =>
      have left : Path.pass true (last :: passed) Path.parent = passed := by
        simp [Path.pass, moves, forward]
      rw [left]
      exact outer
  | down stays forward looked =>
    have added : Path.pass true passed name = name :: passed := by
      simp [Path.pass, nonempty, stays, forward]
    rw [added]
    exact .down trail forward looked

theorem Trail.descend {names : List Text} (nonempty : ∀ name ∈ names, name ≠ [])
    (trail : Trail root passed above node)
    (led : FileSystem.descend path above node names = .ok found) :
    ∃ outer, Trail root (names.foldl (Path.pass true) passed) outer found := by
  induction names generalizing passed above node with
  | nil =>
    rw [FileSystem.descend] at led
    rw [← Except.ok.inj led]
    exact ⟨above, trail⟩
  | cons name rest ih =>
    rw [descend_cons] at led
    cases taken : FileSystem.step path (above, node) name with
    | error failure =>
      rw [taken] at led
      cases led
    | ok next =>
      rw [taken] at led
      have step := trail.step (nonempty name List.mem_cons_self) (step_eq_ok_iff.mp taken)
      apply ih _ step led
      intro other member
      exact nonempty other (List.mem_cons_of_mem name member)

theorem ne_nil_of_mem_steps {path name : Text} (member : name ∈ steps path) : name ≠ [] := by
  rcases List.mem_append.mp member with own | last
  · simpa using (List.mem_filter.mp own).2
  · split at last
    · rw [List.mem_singleton.mp last]
      exact List.cons_ne_nil _ _
    · cases last

theorem ne_nil_of_mem_origin {fs : FileSystem} {path name : Text} (member : name ∈ fs.origin path) :
    name ≠ [] := by
  rw [origin] at member
  split at member
  · cases member
  · exact ne_nil_of_mem_steps member

theorem at?_placeOf {fs : FileSystem} (leads : fs.find path = .ok found) :
    (Node.directory fs.root).at? (fs.placeOf path) = some found := by
  obtain ⟨-, -, led⟩ := descend_of_find leads
  have nonempty : ∀ name ∈ fs.origin path ++ steps path, name ≠ [] := by
    intro name member
    rcases List.mem_append.mp member with before | own
    · exact ne_nil_of_mem_origin before
    · exact ne_nil_of_mem_steps own
  obtain ⟨outer, trail⟩ := Trail.start.descend nonempty led
  exact trail.at?

theorem foldl_pass_steps (path : Text) (passed : List Text) :
    (steps path).foldl (Path.pass true) passed =
      (Path.components path).foldl (Path.pass true) passed := by
  rw [steps, List.foldl_append]
  split
  · simp [Path.pass]
  · rfl

theorem foldl_pass_names {names : List Text} (named : ∀ name ∈ names, Path.IsName name)
    (passed : List Text) : names.foldl (Path.pass true) passed = names.reverse ++ passed := by
  induction names generalizing passed with
  | nil => rfl
  | cons name rest ih =>
    have first := named name List.mem_cons_self
    have added : Path.pass true passed name = name :: passed := by
      simp [Path.pass, first.nonempty, first.not_here, first.not_parent]
    have others : ∀ other ∈ rest, Path.IsName other :=
      fun other member => named other (List.mem_cons_of_mem name member)
    rw [List.foldl_cons, added, ih others, List.reverse_cons, List.append_assoc,
      List.singleton_append]

theorem placeOf_joinNames {fs : FileSystem} {root : Text} {names : List Text} (nonempty : root ≠ [])
    (named : ∀ name ∈ names, Path.IsName name) (down : names ≠ []) :
    fs.placeOf (Path.joinNames root names) = fs.placeOf root ++ names := by
  rw [placeOf, origin_joinNames nonempty named, Path.steps_joinNames nonempty named down, placeOf,
    List.foldl_append, List.foldl_append, List.foldl_append, foldl_pass_steps,
    foldl_pass_names named, List.reverse_append, List.reverse_reverse]

end Trails

section Shapes

/-- A descent looks at the shape only. -/
theorem descend_shape (path : Text) (above : List Node) (node : Node) (names : List Text) :
    descend path (above.map Node.shape) node.shape names =
      (descend path above node names).map Node.shape := by
  induction names generalizing above node with
  | nil => rfl
  | cons name rest ih =>
    cases node with
    | file content => rfl
    | directory entries =>
      by_cases stays : name = Path.here
      · simp only [Node.shape, descend, if_pos stays]
        exact ih above (.directory entries)
      by_cases back : name = Path.parent
      · simp only [Node.shape, descend, if_neg stays, if_pos back]
        cases above with
        | nil => exact ih [] (.directory entries)
        | cons outer above => exact ih above outer
      · simp only [Node.shape, descend, if_neg stays, if_neg back, Node.lookup_shapes]
        cases entries.lookup name with
        | none => rfl
        | some inner => exact ih (.directory entries :: above) inner

def shape (fs : FileSystem) : FileSystem := { fs with root := Node.shapes fs.root }

variable {fs other : FileSystem} {place : List Text}

theorem find_shape (path : Text) : fs.shape.find path = (fs.find path).map Node.shape := by
  rw [find, find]
  split
  · rfl
  · split
    · rfl
    · split <;> exact descend_shape path [] (.directory fs.root) _

theorem entries?_shape (path : Text) :
    fs.shape.entries? path = (fs.entries? path).map Node.shapes := by
  rw [entries?, entries?, find_shape]
  cases fs.find path with
  | error failure => rfl
  | ok found => cases found <;> rfl

/-- File systems seen from the same directory, alike but for the content of the file at a place. -/
structure AlikeBut (place : List Text) (fs other : FileSystem) : Prop where
  tree : Node.AlikeBut place (.directory fs.root) (.directory other.root)
  workingDirectory_eq : fs.workingDirectory = other.workingDirectory

theorem AlikeBut.shape_eq (alike : AlikeBut place fs other) : fs.shape = other.shape := by
  have same := alike.tree.shape_eq
  rw [Node.shape, Node.shape] at same
  rw [shape, shape, Node.directory.inj same, alike.workingDirectory_eq]

theorem AlikeBut.placeOf_eq (alike : AlikeBut place fs other) (path : Text) :
    fs.placeOf path = other.placeOf path := by
  rw [placeOf, placeOf, origin, origin, alike.workingDirectory_eq]

theorem AlikeBut.readBytes_eq (alike : AlikeBut place fs other) {path : Text}
    (away : fs.placeOf path ≠ place) : fs.readBytes path = other.readBytes path := by
  have same : (fs.find path).map Node.shape = (other.find path).map Node.shape := by
    rw [← find_shape, ← find_shape, alike.shape_eq]
  rw [readBytes, readBytes]
  cases first : fs.find path with
  | error failure =>
    rw [first] at same
    cases second : other.find path with
    | error reason =>
      rw [second] at same
      rw [Except.error.inj same]
    | ok found =>
      rw [second] at same
      cases same
  | ok node =>
    rw [first] at same
    cases second : other.find path with
    | error reason =>
      rw [second] at same
      cases same
    | ok found =>
      rw [second] at same
      have shaped : node.shape = found.shape := Except.ok.inj same
      cases node with
      | directory entries =>
        cases found with
        | directory others => rfl
        | file content => cases shaped
      | file content =>
        have there := alike.tree.elsewhere _ content away (at?_placeOf first)
        rw [alike.placeOf_eq, at?_placeOf second] at there
        rw [Option.some.inj there]

end Shapes

end FileSystem

end BasicOutline
