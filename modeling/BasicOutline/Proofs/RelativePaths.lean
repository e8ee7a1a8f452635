import BasicOutline.Proofs.RepositoryWalk
import BasicOutline.Proofs.TreeShape

/-! Paths relative to the root of a walk.

The normal form of a path that begins at the top is known by its names. Names that lead down from a
directory stand behind the names of the directory in it, so what is left after these does not depend
on how the directory is spelled. -/

namespace BasicOutline

namespace Path

section Normal

variable {names : List Text} {name path directory root : Text}

theorem mem_components (member : name ∈ components path) : name ≠ [] ∧ '/' ∉ name := by
  obtain ⟨piece, kept⟩ := List.mem_filter.mp member
  exact ⟨by simpa using kept, Text.not_mem_of_mem_splitOn piece⟩

theorem components_ofComponents (parts : ∀ name ∈ names, name ≠ [] ∧ '/' ∉ name) :
    components (ofComponents names) = names := by
  cases names with
  | nil => rfl
  | cons first rest =>
    have single : ∀ name ∈ first :: rest, '/' ∉ name := fun name member => (parts name member).2
    rw [components, ofComponents, List.splitOn_intercalate '/' single (List.cons_ne_nil _ _),
      List.filter_eq_self]
    intro name member
    exact decide_eq_true (parts name member).1

theorem mem_normalComponents (member : name ∈ normalComponents path) : name ≠ [] ∧ '/' ∉ name := by
  rcases mem_foldl_pass (List.mem_reverse.mp member) with none_there | part | back
  · cases none_there
  · exact mem_components part
  · rw [back]
    decide

theorem components_slash (path : Text) : components ('/' :: path) = components path :=
  components_append [] path

theorem components_normalize (begins : isAbsolute path = true) :
    components (normalize path) = normalComponents path := by
  have names_eq : components (ofComponents (normalComponents path)) = normalComponents path :=
    components_ofComponents fun name => mem_normalComponents
  have some_slash : (path.takeWhile (· == '/')).length ≠ 0 := by
    obtain ⟨rest, whole⟩ := List.head?_eq_some_iff.mp (beq_iff_eq.mp begins)
    rw [whole]
    simp
  simp only [normalize, leadingSlashes, if_neg some_slash]
  split
  · rw [if_neg (by simp), List.cons_append, components_slash, List.cons_append, components_slash,
      List.nil_append]
    exact names_eq
  · rw [if_neg (by simp), List.cons_append, components_slash, List.nil_append]
    exact names_eq

theorem isAbsolute_join (seen : isAbsolute directory = true) (path : Text) :
    isAbsolute (join directory path) = true := by
  have nonempty : directory ≠ [] := by
    intro empty
    rw [empty] at seen
    cases seen
  rw [join]
  split
  · rename_i begins
    exact begins
  · split
    · rw [isAbsolute, List.head?_append_of_ne_nil directory nonempty]
      exact seen
    · rw [isAbsolute, List.head?_append_of_ne_nil directory nonempty]
      exact seen

theorem components_absolute (seen : isAbsolute directory = true) (path : Text) :
    components (absolute directory path) =
      ((components (join directory path)).foldl (pass true) []).reverse := by
  rw [absolute, components_normalize (isAbsolute_join seen path), normalComponents,
    isAbsolute_join seen path]

theorem components_join_joinNames (nonempty : root ≠ []) (named : ∀ name ∈ names, IsName name) :
    components (join directory (joinNames root names)) =
      components (join directory root) ++ names := by
  have kind := isAbsolute_joinNames nonempty named
  cases begins : isAbsolute root with
  | true =>
    rw [begins] at kind
    rw [join, if_pos kind, components_joinNames named, join, if_pos begins]
  | false =>
    rw [begins] at kind
    rw [components_join_of_relative kind, components_joinNames named,
      components_join_of_relative begins, List.append_assoc]

theorem components_absolute_joinNames (seen : isAbsolute directory = true) (nonempty : root ≠ [])
    (named : ∀ name ∈ names, IsName name) :
    components (absolute directory (joinNames root names)) =
      components (absolute directory root) ++ names := by
  rw [components_absolute seen, components_join_joinNames nonempty named, List.foldl_append,
    FileSystem.foldl_pass_names named, List.reverse_append, List.reverse_reverse,
    components_absolute seen]

theorem dropCommon_append (shared rest : List Text) :
    dropCommon shared (shared ++ rest) = ([], rest) := by
  induction shared with
  | nil => cases rest <;> rfl
  | cons first more ih => rw [List.cons_append, dropCommon, if_pos rfl, ih]

/-- The way from a directory to what lies below it goes by the names that lead down. -/
theorem relative_joinNames (seen : isAbsolute directory = true) (nonempty : root ≠ [])
    (named : ∀ name ∈ names, IsName name) (down : names ≠ []) :
    relative directory (joinNames root names) root = ofComponents names := by
  rw [relative, components_absolute_joinNames seen nonempty named, dropCommon_append]
  exact if_neg down

theorem ofComponents_injective {others : List Text} (named : ∀ name ∈ names, IsName name)
    (known : ∀ name ∈ others, IsName name) (same : ofComponents names = ofComponents others) :
    names = others := by
  calc
    names = components (ofComponents names) :=
      (components_ofComponents fun name member =>
        ⟨(named name member).nonempty, (named name member).single⟩).symm
    _ = components (ofComponents others) := by rw [same]
    _ = others :=
      components_ofComponents fun name member =>
        ⟨(known name member).nonempty, (known name member).single⟩

theorem baseName_append (front back : Text) : baseName (front ++ '/' :: back) = baseName back := by
  have stop : ('/' :: front.reverse).takeWhile (· != '/') = [] := by simp
  rw [baseName, baseName, List.reverse_append, List.reverse_cons, List.append_assoc,
    List.singleton_append, List.takeWhile_append, stop, List.append_nil]
  split
  · rename_i all
    rw [(List.takeWhile_sublist _).eq_of_length all]
  · rfl

theorem baseName_ofComponents (directories : List Text) (name : Text) :
    baseName (ofComponents (directories ++ [name])) = baseName name := by
  induction directories with
  | nil => rw [List.nil_append, ofComponents, List.intercalate_singleton]
  | cons first rest ih =>
    have whole : ofComponents (first :: (rest ++ [name])) =
        first ++ '/' :: ofComponents (rest ++ [name]) := by
      cases rest <;> simp [ofComponents, List.intercalate_cons_cons]
    rw [List.cons_append, whole, baseName_append, ih]

end Normal

end Path

namespace Language

theorem ofFileName?_ofComponents (directories : List Text) (name : Text) :
    ofFileName? (Path.ofComponents (directories ++ [name])) = ofFileName? name := by
  simp only [ofFileName?, Path.extension, Path.baseName_ofComponents]

end Language

namespace FileSystem

variable {fs : FileSystem} {root other : Text} {entries second : Entries}

/-- The place of a path is told by its normal form. -/
theorem placeOf_eq (seen : Path.isAbsolute fs.workingDirectory = true) (path : Text) :
    fs.placeOf path = Path.components (fs.absolute path) := by
  rw [absolute, Path.components_absolute seen, placeOf, List.foldl_append, foldl_pass_steps, origin]
  cases begins : Path.isAbsolute path with
  | true => rw [if_pos rfl, List.foldl_nil, Path.join, if_pos begins]
  | false =>
    rw [if_neg Bool.false_ne_true, foldl_pass_steps, Path.components_join_of_relative begins,
      List.foldl_append]

theorem entries_eq_of_absolute (seen : Path.isAbsolute fs.workingDirectory = true)
    (rooted : fs.entries? root = some entries) (found : fs.entries? other = some second)
    (same : fs.absolute other = fs.absolute root) : second = entries := by
  have here := at?_placeOf (entries?_eq_some_iff.mp rooted)
  have there := at?_placeOf (entries?_eq_some_iff.mp found)
  rw [placeOf_eq seen, same, ← placeOf_eq seen, here] at there
  exact (Node.directory.inj (Option.some.inj there)).symm

end FileSystem

namespace Repository

/-- What a listing shows of a source file that does not depend on how its root is spelled. -/
def SourceFile.entry (file : SourceFile) : Text × Language := (file.relativePath, file.language)

section Listed

variable {fs : FileSystem} {root : Text} {entries : Entries}

theorem relativePath_below (seen : Path.isAbsolute fs.workingDirectory = true)
    (rooted : fs.entries? root = some entries) (formed : (Node.directory entries).WellFormed)
    {listed : List Text × Language} (member : listed ∈ listing (.directory entries)) :
    (SourceFile.below fs root listed).relativePath = Path.ofComponents listed.1 := by
  have nonempty := (FileSystem.descend_of_find (FileSystem.entries?_eq_some_iff.mp rooted)).1
  have source := (mem_listing_iff formed).mp member
  have down := source.ne_nil
  obtain ⟨_, _, _, _, stands, _⟩ := source
  simp only [SourceFile.below]
  exact Path.relative_joinNames seen nonempty (Node.named_of_at? formed stands) down

theorem entries_files (seen : Path.isAbsolute fs.workingDirectory = true)
    (rooted : fs.entries? root = some entries) (formed : (Node.directory entries).WellFormed) :
    (files fs root).map SourceFile.entry =
      (listing (.directory entries)).map fun listed => (Path.ofComponents listed.1, listed.2) := by
  rw [files_eq_map_listing rooted, List.map_map]
  apply List.map_congr_left
  intro listed member
  rw [Function.comp_apply, SourceFile.entry, relativePath_below seen rooted formed member]
  rfl

/-- The relative path of a file is made of the names that lead from the root to it. So it tells the
file and its language, and it stays the same however the root is spelled. -/
theorem relativePaths_exact (seen : Path.isAbsolute fs.workingDirectory = true)
    (rooted : fs.entries? root = some entries) (formed : (Node.directory entries).WellFormed) :
    (∀ file ∈ files fs root, ∃ directories name content,
      file.path = Path.joinNames root (directories ++ [name]) ∧
      (Node.directory entries).at? (directories ++ [name]) = some (.file content) ∧
      file.relativePath = Path.ofComponents (directories ++ [name]) ∧
      Language.ofFileName? file.relativePath = some file.language) ∧
    ((files fs root).map SourceFile.relativePath).Nodup ∧
    (∀ other, fs.entries? other = some entries →
      (files fs other).map SourceFile.entry = (files fs root).map SourceFile.entry) ∧
    ∀ other second, fs.entries? other = some second → fs.absolute other = fs.absolute root →
      second = entries := by
  refine ⟨?_, ?_, ?_, ?_⟩
  · intro file member
    rw [files_eq_map_listing rooted] at member
    obtain ⟨listed, inside, whole⟩ := List.mem_map.mp member
    have relative := relativePath_below seen rooted formed inside
    obtain ⟨directories, name, content, names_eq, stands, -, told⟩ :=
      (mem_listing_iff formed).mp inside
    have named := Node.named_of_at? formed stands
    rw [names_eq] at stands relative named
    have single := (named name (List.mem_append_right _ (List.mem_singleton_self name))).single
    rw [← whole]
    refine ⟨directories, name, content, ?_, stands, relative, ?_⟩
    · rw [← names_eq]
      rfl
    · rw [relative, Language.ofFileName?_ofComponents]
      exact (Language.ofFileName?_eq_some_iff single).mpr told
  · have shown := congrArg (List.map Prod.fst) (entries_files seen rooted formed)
    rw [List.map_map, List.map_map] at shown
    exact (congrArg List.Nodup shown).mpr
      (nodup_map_listing formed Path.ofComponents_injective)
  · intro other found
    rw [entries_files seen found formed, entries_files seen rooted formed]
  · intro other second found same
    exact FileSystem.entries_eq_of_absolute seen rooted found same

end Listed

/-- A root spelled through a directory below it, with slashes at the end, and the same by its full
path. -/
theorem relativePaths_exact_of_spellings :
    let below : Entries := [("y.VB".toList, .file [])]
    let entries : Entries := [("x.cls".toList, .directory below), ("a.b.bas".toList, .file [])]
    let fs : FileSystem := ⟨[("w".toList, .directory entries)], "/w".toList⟩
    let root := "./x.cls/..//".toList
    Path.isAbsolute fs.workingDirectory = true ∧ fs.entries? root = some entries ∧
      (Node.directory entries).WellFormed ∧ fs.absolute "/w".toList = fs.absolute root ∧
      (files fs root).map SourceFile.entry =
        [("a.b.bas".toList, .vb6), ("x.cls/y.VB".toList, .vbNet)] ∧
      (files fs "/w".toList).map SourceFile.entry = (files fs root).map SourceFile.entry := by
  intro below entries fs root
  have seen : Path.isAbsolute fs.workingDirectory = true := rfl
  have rooted : fs.entries? root = some entries := rfl
  have inner : (Node.directory below).WellFormed := by
    refine .directory (by decide) (by decide) ?_
    exact List.forall_mem_singleton.mpr (.file [])
  have formed : (Node.directory entries).WellFormed := by
    refine .directory (by decide) (by decide) ?_
    exact List.forall_mem_cons.mpr ⟨inner, List.forall_mem_singleton.mpr (.file [])⟩
  have same : fs.absolute "/w".toList = fs.absolute root := by decide
  obtain ⟨-, -, spelled, -⟩ := relativePaths_exact seen rooted formed
  refine ⟨seen, rooted, formed, same, ?_, spelled "/w".toList rfl⟩
  rw [entries_files seen rooted formed]
  simp [entries, below, listing, listings, ownFiles, ownFile?, sortByName, Text.le,
    List.mergeSort, List.MergeSort.Internal.splitInTwo, skippedNames]
  decide

end Repository

end BasicOutline
