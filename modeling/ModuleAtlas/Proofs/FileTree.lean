import Mathlib.Data.List.Nodup
import ModuleAtlas.Discovery
import ModuleAtlas.Proofs.Path

/-!
# The files of a tree

What a tree has at a path is a relation between the names on the way and the entry they lead to
(`FileTree.At`). It does not depend on the order of the entries, and it knows nothing of directories
that are passed over. In a tree whose directories name their entries in the usual way, a walk finds
exactly the files that no directory on the way hides (`mem_filesFrom_iff`), and no two of them have
the same path (`filesFrom_paths_nodup`).
-/

namespace ModuleAtlas.FileTree

variable {enters : String → Bool} {path name : String} {content : ByteArray}
  {tree entry found : FileTree} {entries : List (String × FileTree)} {above names : List String}

/-! ## Entries at a path -/

/-- The names lead from a tree to an entry of it, each name from a directory to one of its entries. -/
inductive At : FileTree → List String → FileTree → Prop where
  | here (tree : FileTree) : At tree [] tree
  | inside {entries : List (String × FileTree)} {name : String} {entry found : FileTree}
    {names : List String} (hmem : (name, entry) ∈ entries) (hat : At entry names found) :
    At (.directory entries) (name :: names) found

/-- A name that an entry of a directory can have. -/
def IsEntryName (name : String) : Prop := name ≠ "" ∧ '/' ∉ name.toList

instance : DecidablePred IsEntryName := fun _ => inferInstanceAs (Decidable (_ ∧ _))

/-- No directory in the tree has two entries of one name, and no name is empty or has a `/` inside. -/
inductive WellFormed : FileTree → Prop where
  | file (content : ByteArray) : WellFormed (.file content)
  | directory {entries : List (String × FileTree)} (hdistinct : (entries.map (·.1)).Nodup)
    (hnames : ∀ entry ∈ entries, IsEntryName entry.1)
    (hentries : ∀ entry ∈ entries, WellFormed entry.2) : WellFormed (.directory entries)

theorem at_file_iff : At (.file content) names found ↔ names = [] ∧ found = .file content := by
  constructor
  · intro h
    cases h
    exact ⟨rfl, rfl⟩
  · rintro ⟨rfl, rfl⟩
    exact .here _

theorem at_directory_cons_iff : At (.directory entries) (name :: names) found ↔
    ∃ entry, (name, entry) ∈ entries ∧ At entry names found := by
  constructor
  · rintro (_ | ⟨hmem, hat⟩)
    exact ⟨_, hmem, hat⟩
  · rintro ⟨entry, hmem, hat⟩
    exact .inside hmem hat

/-- All names on the way are names of entries. -/
theorem At.isEntryName (hat : At tree names found) (htree : tree.WellFormed) :
    ∀ name ∈ names, IsEntryName name := by
  induction hat with
  | here => simp
  | inside hmem _ ih =>
    cases htree with
    | directory _ hnames hentries =>
      exact List.forall_mem_cons.mpr ⟨hnames _ hmem, ih (hentries _ hmem)⟩

theorem At.slash_not_mem (hat : At tree names found) (htree : tree.WellFormed) :
    ∀ name ∈ names, '/' ∉ name.toList :=
  fun name hname => (hat.isEntryName htree name hname).2

/-- The names lead to one entry only. -/
theorem At.unique {other : FileTree} (hat : At tree names found) (htree : tree.WellFormed)
    (hother : At tree names other) : found = other := by
  induction hat with
  | here =>
    cases hother
    rfl
  | inside hmem _ ih =>
    cases htree with
    | directory hdistinct _ hentries =>
      obtain ⟨entry, hmem', hat'⟩ := at_directory_cons_iff.mp hother
      have hentry := List.inj_on_of_nodup_map hdistinct hmem hmem' rfl
      obtain rfl : _ = entry := (Prod.mk.inj hentry).2
      exact ih (hentries _ hmem) hat'

/-! ## Paths -/

/-- Names of entries can be read off the path that they make. -/
theorem join_injective {others : List String} (hnames : ∀ name ∈ names, IsEntryName name)
    (hothers : ∀ name ∈ others, IsEntryName name)
    (h : Text.join "/" names = Text.join "/" others) : names = others := by
  have hnamed : ∀ {list : List String}, (∀ name ∈ list, IsEntryName name) →
      Path.namedSegments (Text.join "/" list) = list := fun hlist =>
    Path.namedSegments_join (fun name hname => (hlist name hname).2) fun name hname =>
      (hlist name hname).1
  rw [← hnamed hnames, h, hnamed hothers]

/-- The path of an entry of a directory. -/
theorem child_join_name (habove : ∀ name ∈ above, IsEntryName name) (hname : IsEntryName name) :
    Path.child (Text.join "/" above) name = Text.join "/" (above ++ [name]) := by
  have hdown : Text.join "/" [name] ≠ "" := hname.1
  exact Path.child_join (fun name hname => (habove name hname).1) hdown

/-! ## Files -/

/-- Is an entry looked at? A file is in any case. -/
def looksAt (enters : String → Bool) (name : String) : FileTree → Bool
  | .file _ => true
  | .directory _ => enters name

/-- A directory has the files of the entries that are looked at. -/
theorem filesOfEntries_eq_flatMap (enters : String → Bool) (path : String)
    (entries : List (String × FileTree)) : filesOfEntries enters path entries
      = (entries.filter fun entry => looksAt enters entry.1 entry.2).flatMap fun entry =>
          entry.2.filesFrom enters (Path.child path entry.1) := by
  induction entries with
  | nil => rw [filesOfEntries]; rfl
  | cons entry rest ih =>
    obtain ⟨name, content | inner⟩ := entry
    · rw [filesOfEntries, ih, List.filter_cons_of_pos rfl, List.flatMap_cons, filesFrom]
      rfl
    · rw [filesOfEntries, ih]
      cases henters : enters name with
      | true =>
        rw [List.filter_cons_of_pos (by exact henters), List.flatMap_cons, if_pos rfl]
      | false =>
        rw [List.filter_cons_of_neg (by simp [looksAt, henters]), if_neg Bool.false_ne_true,
          List.nil_append]

theorem mem_filesFrom_directory {file : String × ByteArray} :
    file ∈ (directory entries).filesFrom enters path ↔
      ∃ name entry, (name, entry) ∈ entries ∧ looksAt enters name entry = true ∧
        file ∈ entry.filesFrom enters (Path.child path name) := by
  rw [filesFrom, filesOfEntries_eq_flatMap]
  simp only [List.mem_flatMap, List.mem_filter, Prod.exists, and_assoc]

/-- The directories among the names of a file are all entered exactly if the first entry is looked
at and the others are entered from there. -/
theorem forall_enters_cons_iff (hat : At entry names (.file content)) :
    (∀ directory ∈ (name :: names).dropLast, enters directory = true) ↔
      looksAt enters name entry = true ∧ ∀ directory ∈ names.dropLast, enters directory = true := by
  cases hat with
  | here => simp [looksAt]
  | inside hmem hat => simp [looksAt]

/-- A walk finds the files that all directories on the way let through. -/
theorem mem_filesFrom_iff {file : String × ByteArray} (htree : tree.WellFormed)
    (habove : ∀ name ∈ above, IsEntryName name) :
    file ∈ tree.filesFrom enters (Text.join "/" above) ↔
      ∃ names, At tree names (.file file.2) ∧
        (∀ directory ∈ names.dropLast, enters directory = true) ∧
          file.1 = Text.join "/" (above ++ names) := by
  induction htree generalizing above with
  | file content =>
    obtain ⟨path, found⟩ := file
    rw [filesFrom, List.mem_singleton]
    simp only [at_file_iff, Prod.mk.injEq, file.injEq]
    constructor
    · rintro ⟨rfl, rfl⟩
      exact ⟨[], ⟨rfl, rfl⟩, by simp, by rw [List.append_nil]⟩
    · rintro ⟨names, ⟨rfl, rfl⟩, -, hpath⟩
      exact ⟨by rw [hpath, List.append_nil], rfl⟩
  | @directory entries hdistinct hnames hentries ih =>
    have hchild : ∀ name entry, (name, entry) ∈ entries →
        (file ∈ entry.filesFrom enters (Path.child (Text.join "/" above) name) ↔
          ∃ names, At entry names (.file file.2) ∧
            (∀ directory ∈ names.dropLast, enters directory = true) ∧
              file.1 = Text.join "/" (above ++ name :: names)) := by
      intro name entry hmem
      have hname := hnames _ hmem
      have hall : ∀ other ∈ above ++ [name], IsEntryName other := by
        simpa [or_imp, forall_and] using ⟨habove, hname⟩
      rw [child_join_name habove hname, ih _ hmem hall]
      simp only [List.append_assoc, List.singleton_append]
    rw [mem_filesFrom_directory]
    constructor
    · rintro ⟨name, entry, hmem, hlooks, hfile⟩
      obtain ⟨names, hat, henters, hpath⟩ := (hchild name entry hmem).mp hfile
      have hall := (forall_enters_cons_iff hat).mpr ⟨hlooks, henters⟩
      exact ⟨name :: names, .inside hmem hat, hall, hpath⟩
    · rintro ⟨names, hat, henters, hpath⟩
      cases hat with
      | inside hmem hat =>
        obtain ⟨hlooks, henters⟩ := (forall_enters_cons_iff hat).mp henters
        exact ⟨_, _, hmem, hlooks, (hchild _ _ hmem).mpr ⟨_, hat, henters, hpath⟩⟩

/-- No two files have the same path. -/
theorem filesFrom_paths_nodup (enters : String → Bool) (htree : tree.WellFormed)
    (habove : ∀ name ∈ above, IsEntryName name) :
    ((tree.filesFrom enters (Text.join "/" above)).map (·.1)).Nodup := by
  induction htree generalizing above with
  | file content => rw [filesFrom]; exact List.nodup_singleton _
  | @directory entries hdistinct hnames hentries ih =>
    have hall : ∀ entry ∈ entries, ∀ other ∈ above ++ [entry.1], IsEntryName other := by
      intro entry hmem
      simpa [or_imp, forall_and] using ⟨habove, hnames entry hmem⟩
    have hchild : ∀ entry ∈ entries,
        Path.child (Text.join "/" above) entry.1 = Text.join "/" (above ++ [entry.1]) :=
      fun entry hmem => child_join_name habove (hnames entry hmem)
    -- the path of a file below an entry shows the name of the entry
    have hname : ∀ entry ∈ entries, ∀ path,
        path ∈ (entry.2.filesFrom enters (Path.child (Text.join "/" above) entry.1)).map (·.1) →
          ∃ names, (∀ name ∈ names, IsEntryName name) ∧
            path = Text.join "/" (above ++ [entry.1] ++ names) := by
      intro entry hmem path hpath
      obtain ⟨file, hfile, rfl⟩ := List.mem_map.mp hpath
      rw [hchild entry hmem, mem_filesFrom_iff (hentries entry hmem) (hall entry hmem)] at hfile
      obtain ⟨names, hat, -, hpath⟩ := hfile
      exact ⟨names, hat.isEntryName (hentries entry hmem), hpath⟩
    rw [filesFrom, filesOfEntries_eq_flatMap, List.map_flatMap, List.nodup_flatMap]
    constructor
    · intro entry hentry
      have hmem := (List.mem_filter.mp hentry).1
      rw [hchild entry hmem]
      exact ih entry hmem (hall entry hmem)
    · have hpair : entries.Pairwise fun a b => a.1 ≠ b.1 := List.pairwise_map.mp hdistinct
      refine (hpair.filter _).imp_of_mem ?_
      intro a b ha hb hne path hpatha hpathb
      have ha := (List.mem_filter.mp ha).1
      have hb := (List.mem_filter.mp hb).1
      obtain ⟨namesa, hnamesa, hjoina⟩ := hname a ha path hpatha
      obtain ⟨namesb, hnamesb, hjoinb⟩ := hname b hb path hpathb
      have heq : above ++ [a.1] ++ namesa = above ++ [b.1] ++ namesb := by
        refine join_injective ?_ ?_ (hjoina.symm.trans hjoinb)
        · exact List.forall_mem_append.mpr ⟨hall a ha, hnamesa⟩
        · exact List.forall_mem_append.mpr ⟨hall b hb, hnamesb⟩
      rw [List.append_assoc, List.append_assoc, List.append_cancel_left_eq] at heq
      exact hne (List.cons.inj heq).1

end ModuleAtlas.FileTree
