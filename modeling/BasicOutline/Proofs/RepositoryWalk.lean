import BasicOutline.Proofs.DirectoryTree
import BasicOutline.Proofs.TextSpans
import BasicOutline.Repository
import Mathlib.Data.List.Perm.Basic

/-! The source files below a directory.

Which files a walk lists is said by the names that lead to them, and so is their order. As no two
files are reached by the same names, this leaves one list only, in whatever order the directories
have their entries. -/

namespace BasicOutline

open Text

namespace Language

/-- What a file name says about the language: after a stem that holds more than dots comes an
extension, which begins at the last dot and which in lower case is one of those known. -/
def Told (name : Text) (language : Language) : Prop :=
  ∃ stem rest, name = stem ++ '.' :: rest ∧ '.' ∉ rest ∧ (∃ c ∈ stem, c ≠ '.') ∧
    (('.' :: rest).map Char.toLower, language) ∈ extensions

theorem baseName_eq_self {name : Text} (single : '/' ∉ name) : Path.baseName name = name := by
  have all : name.reverse.takeWhile (· != '/') = name.reverse := by
    rw [List.takeWhile_eq_self_iff]
    intro c member
    rw [bne_iff_ne]
    intro slash
    exact single (slash ▸ List.mem_reverse.mp member)
  rw [Path.baseName, all, List.reverse_reverse]

theorem extension_of_no_dot {name : Text} (single : '/' ∉ name) (plain : '.' ∉ name) :
    Path.extension name = [] := by
  have none_left : name.reverse.dropWhile (· != '.') = [] := by
    rw [List.dropWhile_eq_nil_iff]
    intro c member
    rw [bne_iff_ne]
    intro dot
    exact plain (dot ▸ List.mem_reverse.mp member)
  simp only [Path.extension, baseName_eq_self single, none_left]

theorem extension_of_last_dot {stem rest : Text} (single : '/' ∉ stem ++ '.' :: rest)
    (plain : '.' ∉ rest) :
    Path.extension (stem ++ '.' :: rest) = if stem.all (· == '.') then [] else '.' :: rest := by
  have passed : ∀ c ∈ rest.reverse, (c != '.') = true := by
    intro c member
    rw [bne_iff_ne]
    intro dot
    exact plain (dot ▸ List.mem_reverse.mp member)
  have reversed : (stem ++ '.' :: rest).reverse = rest.reverse ++ '.' :: stem.reverse := by simp
  have stop : ∀ c, ('.' :: stem.reverse).head? = some c → (c != '.') = false := by simp
  simp only [Path.extension, baseName_eq_self single, reversed, dropWhile_append_stop passed stop,
    takeWhile_append_stop passed stop, List.all_reverse, List.reverse_reverse]

theorem ofFileName?_eq_some_iff {name : Text} (single : '/' ∉ name) {language : Language} :
    ofFileName? name = some language ↔ Told name language := by
  have distinct : (extensions.map Prod.fst).Nodup := by decide
  have unknown : ([], language) ∉ extensions := by cases language <;> decide
  rw [ofFileName?, lookup_eq_some_iff_mem distinct]
  constructor
  · intro known
    by_cases dotted : '.' ∈ name
    · obtain ⟨rest, stem, reversed, plain⟩ :=
        List.eq_append_cons_of_mem (List.mem_reverse.mpr dotted)
      have whole : name = stem.reverse ++ '.' :: rest.reverse := by
        rw [← List.reverse_reverse name, reversed]
        simp
      have last : '.' ∉ rest.reverse := fun member => plain (List.mem_reverse.mp member)
      rw [whole, extension_of_last_dot (whole ▸ single) last] at known
      split at known
      · exact absurd known unknown
      · rename_i held
        rw [List.all_eq_true] at held
        push Not at held
        exact ⟨stem.reverse, rest.reverse, whole, last, by simpa using held, known⟩
    · rw [extension_of_no_dot single dotted] at known
      exact absurd known unknown
  · intro ⟨stem, rest, whole, last, ⟨c, member, other⟩, known⟩
    have held : ¬ stem.all (· == '.') = true := by
      intro dots
      have dot := List.all_eq_true.mp dots c member
      exact other (by simpa using dot)
    rw [whole] at single ⊢
    rwa [extension_of_last_dot single last, if_neg held]

end Language

namespace Repository

def Before (first second : Text) : Prop := Text.le first second = true ∧ first ≠ second

/-- The order of a walk, by the names that lead to the files: the files of a directory come before
those of its directories, and otherwise names decide. -/
inductive Precedes : List Text → List Text → Prop where
  | files {first second : Text} (before : Before first second) : Precedes [first] [second]
  | above {first second : Text} {below : List Text} (deeper : below ≠ []) :
      Precedes [first] (second :: below)
  | directories {first second : Text} {below under : List Text} (deep : below ≠ [])
      (deeper : under ≠ []) (before : Before first second) :
      Precedes (first :: below) (second :: under)
  | within {directory : Text} {below under : List Text} (inner : Precedes below under) :
      Precedes (directory :: below) (directory :: under)

section Order

theorem Before.asymm {first second : Text} (before : Before first second)
    (after : Before second first) : False :=
  before.2 (Text.le_antisymm before.1 after.1)

theorem Precedes.left_ne_nil {first second : List Text} (precedes : Precedes first second) :
    first ≠ [] := by
  cases precedes <;> exact List.cons_ne_nil _ _

theorem Precedes.right_ne_nil {first second : List Text} (precedes : Precedes first second) :
    second ≠ [] := by
  cases precedes <;> exact List.cons_ne_nil _ _

theorem Precedes.asymm {first second : List Text} (precedes : Precedes first second)
    (follows : Precedes second first) : False := by
  induction precedes with
  | files before =>
    cases follows with
    | files after => exact before.asymm after
    | above deeper => exact deeper rfl
    | directories deep _ _ => exact deep rfl
    | within inner => exact inner.left_ne_nil rfl
  | above deeper =>
    cases follows with
    | files _ => exact deeper rfl
    | above other => exact other rfl
    | directories _ other _ => exact other rfl
    | within inner => exact inner.right_ne_nil rfl
  | directories deep deeper before =>
    cases follows with
    | files _ => exact deep rfl
    | above _ => exact deeper rfl
    | directories _ _ after => exact before.asymm after
    | within _ => exact before.2 rfl
  | within inner ih =>
    cases follows with
    | files after => exact after.2 rfl
    | above _ => exact inner.right_ne_nil rfl
    | directories _ _ after => exact after.2 rfl
    | within other => exact ih other

theorem Precedes.ne {first second : List Text} (precedes : Precedes first second) :
    first ≠ second := by
  intro same
  rw [same] at precedes
  exact precedes.asymm precedes

/-- What is listed in the order of a walk is known by its members. -/
theorem eq_of_mem_iff {α : Type} {first second : List (List Text × α)}
    (ordered : first.Pairwise fun one other => Precedes one.1 other.1)
    (sorted : second.Pairwise fun one other => Precedes one.1 other.1)
    (same : ∀ listed, listed ∈ first ↔ listed ∈ second) : first = second := by
  have distinct : first.Nodup := ordered.imp fun precedes equal =>
    precedes.ne (congrArg Prod.fst equal)
  have unequal : second.Nodup := sorted.imp fun precedes equal =>
    precedes.ne (congrArg Prod.fst equal)
  have moved : first.Perm second := (List.perm_ext_iff_of_nodup distinct unequal).mpr same
  apply moved.eq_of_pairwise _ ordered sorted
  intro one other _ _ precedes follows
  exact (precedes.asymm follows).elim

variable {α : Type} {entries : List (Text × α)}

theorem mem_sortByName {entry : Text × α} : entry ∈ sortByName entries ↔ entry ∈ entries :=
  (List.mergeSort_perm entries _).mem_iff

theorem pairwise_sortByName (distinct : (entries.map Prod.fst).Nodup) :
    (sortByName entries).Pairwise fun first second => Before first.1 second.1 := by
  have sorted : (sortByName entries).Pairwise
      fun first second => Text.le first.1 second.1 = true := by
    apply List.pairwise_mergeSort
    · intro first middle last lower upper
      exact Text.le_trans lower upper
    · intro first second
      exact Text.le_total first.1 second.1
  have names : ((sortByName entries).map Prod.fst).Nodup :=
    ((List.mergeSort_perm entries _).map Prod.fst).nodup_iff.mpr distinct
  exact sorted.and (List.pairwise_map.mp names)

theorem map_sortByName {β : Type} (f : α → β) :
    (sortByName entries).map (fun entry => (entry.1, f entry.2)) =
      sortByName (entries.map fun entry => (entry.1, f entry.2)) :=
  List.map_mergeSort fun _ _ _ _ => rfl

end Order

def ownFile? (entry : Text × Node) : Option (List Text × Language) :=
  match entry.2 with
  | .directory _ => none
  | .file _ => (Language.ofFileName? entry.1).map ([entry.1], ·)

def ownFiles (entries : Entries) : List (List Text × Language) :=
  (sortByName entries).filterMap ownFile?

mutual

def listing : Node → List (List Text × Language)
  | .file _ => []
  | .directory entries => ownFiles entries ++ (sortByName (listings entries)).flatMap (·.2)

def listings : List (Text × Node) → List (Text × List (List Text × Language))
  | [] => []
  | (name, node) :: rest =>
    if skippedNames.contains name then listings rest
    else (name, (listing node).map fun listed => (name :: listed.1, listed.2)) :: listings rest

end

def placed (directory : Text) (listed : List Text × Language) : Text × Language :=
  (Path.joinNames directory listed.1, listed.2)

theorem sourceFiles_eq (directory : Text) (entries : Entries) :
    sourceFiles directory entries = (ownFiles entries).map (placed directory) := by
  rw [sourceFiles, ownFiles, List.map_filterMap]
  congr 1
  funext (name, node)
  cases node with
  | directory inner => rfl
  | file content =>
    simp only [ownFile?, Option.map_map]
    rfl

mutual

theorem walk_eq (directory : Text) (node : Node) :
    walk directory node = (listing node).map (placed directory) := by
  match node with
  | .file _ => rfl
  | .directory entries =>
    rw [walk, listing, List.map_append, sourceFiles_eq, walkEntries_eq directory entries,
      ← map_sortByName, List.flatMap_map, List.map_flatMap]

theorem walkEntries_eq (directory : Text) (entries : List (Text × Node)) :
    walkEntries directory entries =
      (listings entries).map fun below => (below.1, below.2.map (placed directory)) := by
  match entries with
  | [] => rfl
  | (name, node) :: rest =>
    rw [walkEntries, listings]
    split
    · exact walkEntries_eq directory rest
    · rw [walk_eq (Path.join directory name) node, walkEntries_eq directory rest, List.map_cons,
        List.map_map]
      rfl

end

/-- The names lead to a file in a known language, through directories that are not passed over. -/
def IsSource (node : Node) (names : List Text) (language : Language) : Prop :=
  ∃ directories name content, names = directories ++ [name] ∧
    node.at? names = some (.file content) ∧
    (∀ directory ∈ directories, directory ∉ skippedNames) ∧ Language.Told name language

section Members

variable {entries : Entries} {names : List Text} {language : Language}

theorem ownFile?_eq_some_iff {entry : Text × Node} {listed : List Text × Language} :
    ownFile? entry = some listed ↔ ∃ content, entry.2 = .file content ∧ listed.1 = [entry.1] ∧
      Language.ofFileName? entry.1 = some listed.2 := by
  obtain ⟨name, node⟩ := entry
  cases node with
  | directory inner => exact ⟨nofun, nofun⟩
  | file content =>
    rw [ownFile?, Option.map_eq_some_iff]
    constructor
    · intro ⟨language, known, same⟩
      rw [← same]
      exact ⟨content, rfl, rfl, known⟩
    · intro ⟨_, _, alone, known⟩
      exact ⟨listed.2, known, Prod.ext alone.symm rfl⟩

theorem mem_ownFiles (named : ∀ entry ∈ entries, Path.IsName entry.1) :
    (names, language) ∈ ownFiles entries ↔ ∃ name content, names = [name] ∧
      (name, Node.file content) ∈ entries ∧ Language.Told name language := by
  rw [ownFiles, List.mem_filterMap]
  constructor
  · intro ⟨(name, node), member, shown⟩
    obtain ⟨content, file, alone, known⟩ := ownFile?_eq_some_iff.mp shown
    have present := mem_sortByName.mp member
    exact ⟨name, content, alone, file ▸ present,
      (Language.ofFileName?_eq_some_iff (named _ present).single).mp known⟩
  · intro ⟨name, content, alone, present, told⟩
    have known := (Language.ofFileName?_eq_some_iff (named _ present).single).mpr told
    exact ⟨(name, .file content), mem_sortByName.mpr present,
      ownFile?_eq_some_iff.mpr ⟨content, rfl, alone, known⟩⟩

theorem mem_listings {name : Text} {below : List (List Text × Language)} :
    (name, below) ∈ listings entries ↔ ∃ node, (name, node) ∈ entries ∧ name ∉ skippedNames ∧
      below = (listing node).map fun listed => (name :: listed.1, listed.2) := by
  induction entries with
  | nil => simp [listings]
  | cons entry rest ih =>
    obtain ⟨first, node⟩ := entry
    rw [listings]
    split
    · rename_i skipped
      have passed : first ∈ skippedNames := by simpa using skipped
      rw [ih]
      constructor
      · intro ⟨other, member, kept, same⟩
        exact ⟨other, List.mem_cons_of_mem _ member, kept, same⟩
      · intro ⟨other, member, kept, same⟩
        rcases List.mem_cons.mp member with here | later
        · cases here
          exact absurd passed kept
        · exact ⟨other, later, kept, same⟩
    · rename_i taken
      have kept : first ∉ skippedNames := by simpa using taken
      rw [List.mem_cons, ih]
      constructor
      · intro either
        rcases either with here | ⟨other, member, free, same⟩
        · cases here
          exact ⟨node, List.mem_cons_self, kept, rfl⟩
        · exact ⟨other, List.mem_cons_of_mem _ member, free, same⟩
      · intro ⟨other, member, free, same⟩
        rcases List.mem_cons.mp member with here | later
        · cases here
          exact .inl (by rw [same])
        · exact .inr ⟨other, later, free, same⟩

theorem keys_listings : ((listings entries).map Prod.fst).Sublist (entries.map Prod.fst) := by
  induction entries with
  | nil => exact .slnil
  | cons entry rest ih =>
    rw [listings]
    split
    · exact ih.cons _
    · exact ih.cons_cons _

theorem mem_listing_directory (named : ∀ entry ∈ entries, Path.IsName entry.1) :
    (names, language) ∈ listing (.directory entries) ↔
      (∃ name content, names = [name] ∧ (name, Node.file content) ∈ entries ∧
        Language.Told name language) ∨
      ∃ name node rest, names = name :: rest ∧ (name, node) ∈ entries ∧ name ∉ skippedNames ∧
        (rest, language) ∈ listing node := by
  rw [listing, List.mem_append, mem_ownFiles named, List.mem_flatMap]
  apply or_congr_right
  constructor
  · intro ⟨(name, below), member, listed⟩
    obtain ⟨node, present, kept, same⟩ := mem_listings.mp (mem_sortByName.mp member)
    rw [same] at listed
    obtain ⟨⟨rest, known⟩, inside, whole⟩ := List.mem_map.mp listed
    cases whole
    exact ⟨name, node, rest, rfl, present, kept, inside⟩
  · intro ⟨name, node, rest, same, present, kept, inside⟩
    refine ⟨(name, _), mem_sortByName.mpr (mem_listings.mpr ⟨node, present, kept, rfl⟩), ?_⟩
    rw [same]
    exact List.mem_map.mpr ⟨(rest, language), inside, rfl⟩

theorem isSource_directory (formed : (Node.directory entries).WellFormed) :
    IsSource (.directory entries) names language ↔
      (∃ name content, names = [name] ∧ (name, Node.file content) ∈ entries ∧
        Language.Told name language) ∨
      ∃ name node rest, names = name :: rest ∧ (name, node) ∈ entries ∧ name ∉ skippedNames ∧
        IsSource node rest language := by
  constructor
  · intro ⟨directories, name, content, whole, stands, kept, told⟩
    cases directories with
    | nil =>
      rw [whole] at stands
      obtain ⟨node, member, -, here⟩ := Node.exists_of_at?_cons formed stands
      have same : node = .file content := Option.some.inj here
      exact .inl ⟨name, content, whole, same ▸ member, told⟩
    | cons first others =>
      rw [whole] at stands
      obtain ⟨node, member, -, below⟩ := Node.exists_of_at?_cons formed stands
      refine .inr ⟨first, node, others ++ [name], whole, member, kept first List.mem_cons_self,
        others, name, content, rfl, below, ?_, told⟩
      intro directory present
      exact kept directory (List.mem_cons_of_mem first present)
  · intro either
    cases formed with
    | directory distinct named inner =>
      rcases either with ⟨name, content, whole, member, told⟩ |
        ⟨name, node, rest, whole, member, kept, directories, last, content, same, below, free, told⟩
      · refine ⟨[], name, content, whole, ?_, nofun, told⟩
        rw [whole, Node.at?_of_mem distinct member]
        rfl
      · refine ⟨name :: directories, last, content, ?_, ?_, ?_, told⟩
        · rw [whole, same, List.cons_append]
        · rw [whole, Node.at?_of_mem distinct member, below]
        · intro directory present
          rcases List.mem_cons.mp present with first | later
          · rw [first]
            exact kept
          · exact free directory later

end Members

theorem mem_listing_iff {node : Node} (formed : node.WellFormed) {names : List Text}
    {language : Language} : (names, language) ∈ listing node ↔ IsSource node names language := by
  induction formed generalizing names with
  | file content =>
    constructor
    · intro member
      rw [listing] at member
      cases member
    · intro ⟨directories, name, other, whole, stands, _⟩
      rw [whole] at stands
      cases directories <;> cases stands
  | @directory entries distinct named inner ih =>
    rw [mem_listing_directory named, isSource_directory (.directory distinct named inner)]
    apply or_congr_right
    constructor
    · intro ⟨name, node, rest, whole, member, kept, listed⟩
      exact ⟨name, node, rest, whole, member, kept, (ih _ member).mp listed⟩
    · intro ⟨name, node, rest, whole, member, kept, source⟩
      exact ⟨name, node, rest, whole, member, kept, (ih _ member).mpr source⟩

theorem IsSource.ne_nil {node : Node} {names : List Text} {language : Language}
    (source : IsSource node names language) : names ≠ [] := by
  obtain ⟨directories, name, -, whole, -⟩ := source
  rw [whole]
  exact List.append_ne_nil_of_right_ne_nil directories (List.cons_ne_nil name [])

theorem pairwise_ownFiles {entries : Entries} (distinct : (entries.map Prod.fst).Nodup) :
    (ownFiles entries).Pairwise fun first second => Precedes first.1 second.1 := by
  rw [ownFiles, List.pairwise_filterMap]
  apply (pairwise_sortByName distinct).imp
  intro entry other before first shown second told
  obtain ⟨-, -, alone, -⟩ := ownFile?_eq_some_iff.mp shown
  obtain ⟨-, -, single, -⟩ := ownFile?_eq_some_iff.mp told
  rw [alone, single]
  exact .files before

theorem exists_of_mem_listings {entries : Entries} (formed : (Node.directory entries).WellFormed)
    {below : Text × List (List Text × Language)} (member : below ∈ listings entries)
    {listed : List Text × Language} (inside : listed ∈ below.2) :
    ∃ rest, listed.1 = below.1 :: rest ∧ rest ≠ [] := by
  obtain ⟨node, present, -, same⟩ := mem_listings.mp member
  rw [same] at inside
  obtain ⟨⟨rest, language⟩, there, whole⟩ := List.mem_map.mp inside
  refine ⟨rest, by rw [← whole], ?_⟩
  cases formed with
  | directory distinct named inner => exact ((mem_listing_iff (inner _ present)).mp there).ne_nil

theorem pairwise_listing {node : Node} (formed : node.WellFormed) :
    (listing node).Pairwise fun first second => Precedes first.1 second.1 := by
  induction formed with
  | file content => exact .nil
  | @directory entries distinct named inner ih =>
    have whole : (Node.directory entries).WellFormed := .directory distinct named inner
    have keys : ((listings entries).map Prod.fst).Nodup := distinct.sublist keys_listings
    have below : ((sortByName (listings entries)).flatMap (·.2)).Pairwise
        fun first second => Precedes first.1 second.1 := by
      rw [List.pairwise_flatMap]
      constructor
      · intro (name, listed) member
        obtain ⟨node, present, -, same⟩ := mem_listings.mp (mem_sortByName.mp member)
        rw [same, List.pairwise_map]
        exact (ih _ present).imp .within
      · apply (pairwise_sortByName keys).imp_of_mem
        intro first second one other before listed inside next within
        obtain ⟨rest, shown, deep⟩ :=
          exists_of_mem_listings whole (mem_sortByName.mp one) inside
        obtain ⟨more, told, deeper⟩ :=
          exists_of_mem_listings whole (mem_sortByName.mp other) within
        rw [shown, told]
        exact .directories deep deeper before
    rw [listing, List.pairwise_append]
    refine ⟨pairwise_ownFiles distinct, below, ?_⟩
    intro own member listed inside
    obtain ⟨entry, -, shown⟩ := List.mem_filterMap.mp member
    obtain ⟨-, -, alone, -⟩ := ownFile?_eq_some_iff.mp shown
    obtain ⟨under, present, within⟩ := List.mem_flatMap.mp inside
    obtain ⟨rest, deep, deeper⟩ :=
      exists_of_mem_listings whole (mem_sortByName.mp present) within
    rw [alone, deep]
    exact .above deeper

/-- Trees that have files at the same places have the same sources, and list them alike. -/
theorem listing_eq_of_places {first second : Node} (formed : first.WellFormed)
    (sound : second.WellFormed)
    (same : ∀ names, (∃ content, first.at? names = some (.file content)) ↔
      ∃ content, second.at? names = some (.file content)) : listing first = listing second := by
  apply eq_of_mem_iff (pairwise_listing formed) (pairwise_listing sound)
  intro (names, language)
  rw [mem_listing_iff formed, mem_listing_iff sound]
  constructor
  · intro ⟨directories, name, content, whole, stands, kept, told⟩
    obtain ⟨other, there⟩ := (same names).mp ⟨content, stands⟩
    exact ⟨directories, name, other, whole, there, kept, told⟩
  · intro ⟨directories, name, content, whole, stands, kept, told⟩
    obtain ⟨other, there⟩ := (same names).mpr ⟨content, stands⟩
    exact ⟨directories, name, other, whole, there, kept, told⟩

def SourceFile.below (fs : FileSystem) (root : Text) (listed : List Text × Language) :
    SourceFile :=
  let path := Path.joinNames root listed.1
  ⟨path, Path.relative fs.workingDirectory path root, listed.2⟩

/-- The files that a walk from a root gives are the sources below the root, in the order of a walk,
each of them once and under a path that leads to it. -/
structure ExactWalk (fs : FileSystem) (root : Text) (entries : Entries)
    (listed : List (List Text × Language)) : Prop where
  files_eq : files fs root = listed.map (SourceFile.below fs root)
  mem_iff : ∀ names language,
    (names, language) ∈ listed ↔ IsSource (.directory entries) names language
  ordered : listed.Pairwise fun first second => Precedes first.1 second.1
  once : ((files fs root).map SourceFile.path).Nodup
  leads : ∀ names language content, (names, language) ∈ listed →
    (Node.directory entries).at? names = some (.file content) →
    fs.find (Path.joinNames root names) = .ok (.file content)

section Walk

variable {fs : FileSystem} {root : Text} {entries : Entries}

theorem files_eq_map_listing (rooted : fs.entries? root = some entries) :
    files fs root = (listing (.directory entries)).map (SourceFile.below fs root) := by
  rw [files, rooted]
  simp only [walk_eq, List.map_map]
  rfl

/-- What is made of the names that lead to a file is different for each file, if different names
make different things. -/
theorem nodup_map_listing {α : Type} {make : List Text → α}
    (formed : (Node.directory entries).WellFormed)
    (injective : ∀ {first second : List Text}, (∀ name ∈ first, Path.IsName name) →
      (∀ name ∈ second, Path.IsName name) → make first = make second → first = second) :
    ((listing (.directory entries)).map fun listed => make listed.1).Nodup := by
  rw [List.Nodup, List.pairwise_map]
  apply (pairwise_listing formed).imp_of_mem
  intro first second member present precedes same
  obtain ⟨_, _, _, _, stands, _⟩ := (mem_listing_iff formed).mp member
  obtain ⟨_, _, _, _, there, _⟩ := (mem_listing_iff formed).mp present
  apply precedes.ne
  exact injective (Node.named_of_at? formed stands) (Node.named_of_at? formed there) same

theorem exactWalk_listing (rooted : fs.entries? root = some entries)
    (formed : (Node.directory entries).WellFormed) :
    ExactWalk fs root entries (listing (.directory entries)) where
  files_eq := files_eq_map_listing rooted
  mem_iff names language := mem_listing_iff formed
  ordered := pairwise_listing formed
  once := by
    rw [files_eq_map_listing rooted, List.map_map]
    exact nodup_map_listing formed Path.joinNames_injective
  leads names language content member stands := by
    have source := (mem_listing_iff formed).mp member
    exact FileSystem.find_joinNames (FileSystem.entries?_eq_some_iff.mp rooted) formed stands
      source.ne_nil

/-- From every directory a walk gives exactly the sources below it, and does not depend on the order
in which directories have their entries. -/
theorem files_exact (rooted : fs.entries? root = some entries)
    (formed : (Node.directory entries).WellFormed) :
    (∃ listed, ExactWalk fs root entries listed) ∧
      ∀ (other : FileSystem) (second : Entries), other.entries? root = some second →
        Node.Reordered (.directory entries) (.directory second) →
        other.workingDirectory = fs.workingDirectory → files other root = files fs root := by
  refine ⟨⟨_, exactWalk_listing rooted formed⟩, ?_⟩
  intro other second found reordered same
  have alike : listing (.directory entries) = listing (.directory second) := by
    apply listing_eq_of_places formed (formed.reordered reordered)
    intro names
    exact exists_congr fun content => reordered.file_at?_iff formed
  rw [files_eq_map_listing rooted, files_eq_map_listing found, alike]
  apply List.map_congr_left
  intro listed _
  rw [SourceFile.below, SourceFile.below, same]

end Walk

/-- A walk from a directory that is itself called like those passed over: `.vb` has no stem, `x.cls`
is a directory, and in it `bin` is passed over. -/
theorem files_exact_in_mixed_tree :
    let skipped : Node := .directory [("z.vb".toList, .file [])]
    let below : Entries := [("bin".toList, skipped), ("Y.frm".toList, .file [])]
    let entries : Entries := [("x.cls".toList, .directory below), ("b.BAS".toList, .file []),
      (".vb".toList, .file []), ("a.vb".toList, .file [])]
    let turned : Entries := [("b.BAS".toList, .file []), ("x.cls".toList, .directory below.reverse),
      (".vb".toList, .file []), ("a.vb".toList, .file [])]
    let disk (entries : Entries) : FileSystem :=
      ⟨[("w".toList, .directory [("bin".toList, .directory entries)])], "/w".toList⟩
    let root := "./bin/".toList
    (∃ listed, ExactWalk (disk entries) root entries listed) ∧
      files (disk entries) root = [⟨"./bin/a.vb".toList, "a.vb".toList, .vbNet⟩,
        ⟨"./bin/b.BAS".toList, "b.BAS".toList, .vb6⟩,
        ⟨"./bin/x.cls/Y.frm".toList, "x.cls/Y.frm".toList, .vb6⟩] ∧
      files (disk turned) root = files (disk entries) root := by
  intro skipped below entries turned disk root
  have rooted : (disk entries).entries? root = some entries := rfl
  have low : skipped.WellFormed := by
    refine .directory (by decide) (by decide) ?_
    exact List.forall_mem_singleton.mpr (.file [])
  have middle : (Node.directory below).WellFormed := by
    refine .directory (by decide) (by decide) ?_
    exact List.forall_mem_cons.mpr ⟨low, List.forall_mem_singleton.mpr (.file [])⟩
  have formed : (Node.directory entries).WellFormed := by
    refine .directory (by decide) (by decide) ?_
    exact List.forall_mem_cons.mpr ⟨middle, by simp [Node.WellFormed.file]⟩
  obtain ⟨exact_walk, order_free⟩ := files_exact rooted formed
  refine ⟨exact_walk, ?_, ?_⟩
  · rw [files_eq_map_listing rooted]
    simp [entries, below, skipped, listing, listings, ownFiles, ownFile?, sortByName, Text.le,
      List.mergeSort, List.MergeSort.Internal.splitInTwo, skippedNames]
    decide
  · have same : ∀ content, Node.Reordered (.file content) (.file content) := Node.Reordered.file
    apply order_free (disk turned) turned rfl _ rfl
    apply Node.Reordered.directory (List.Perm.swap _ _ _)
    refine .cons (same _) (.cons (.directory (List.reverse_perm below).symm ?_)
      (.cons (same _) (.cons (same _) .nil)))
    exact .cons (same _) (.cons (.directory (.refl _) (.cons (same _) .nil)) .nil)

end Repository

end BasicOutline
