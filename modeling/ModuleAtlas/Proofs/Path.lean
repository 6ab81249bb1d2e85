import Mathlib.Data.List.Infix
import ModuleAtlas.Path
import ModuleAtlas.Proofs.Text.Join
import ModuleAtlas.Proofs.Text.Split

/-!
# Steps between paths

A path is normal if each of its segments names an entry of a directory. From the directory of one
normal path to another one there is a relative path for each directory that contains both: as many
steps up as there are segments below that directory, and then down the rest of the other path. It is
followed to just that path (`resolve?_relative`), and the steps up alone lead to the directory
(`climb?_join`).

The same way can be written as a dotted name with a point for each step, if no segment has a point
inside.
-/

namespace ModuleAtlas.Path

variable {path : String} {above inner down names : List String}

/-! ## Segments -/

/-- A segment that names an entry of a directory: it is not empty, and it is no step. -/
def IsName (segment : String) : Prop := segment ≠ "" ∧ segment ≠ "." ∧ segment ≠ ".."

instance : DecidablePred IsName := fun _ => inferInstanceAs (Decidable (_ ∧ _ ∧ _))

/-- All segments of a path are names. -/
def IsNormal (path : String) : Prop := ∀ segment ∈ segments path, IsName segment

instance : DecidablePred IsNormal := fun path =>
  inferInstanceAs (Decidable (∀ segment ∈ segments path, IsName segment))

theorem segments_ne_nil (path : String) : segments path ≠ [] := Text.split_ne_nil '/' path

theorem slash_not_mem {segment : String} (h : segment ∈ segments path) : '/' ∉ segment.toList :=
  Text.not_mem_of_mem_split h

theorem join_segments (path : String) : Text.join "/" (segments path) = path :=
  Text.join_split '/' path

theorem segments_join (hne : names ≠ []) (hslash : ∀ name ∈ names, '/' ∉ name.toList) :
    segments (Text.join "/" names) = names :=
  Text.split_join hne hslash

theorem mem_segments_of_mem_directories {segment : String} (h : segment ∈ directories path) :
    segment ∈ segments path :=
  List.mem_of_mem_dropLast h

/-- The segments of a path are its directories and the name of the file. -/
theorem directories_concat_fileName (path : String) :
    directories path ++ [fileName path] = segments path := by
  have hlast := List.dropLast_append_getLast? (l := segments path)
  cases hname : (segments path).getLast? with
  | none => exact absurd (List.getLast?_eq_none_iff.mp hname) (segments_ne_nil path)
  | some name =>
    rw [directories, fileName, hname, Option.getD_some]
    exact hlast name hname

/-- Names without separators are the named segments of their join, even if there are none. -/
theorem namedSegments_join (hslash : ∀ name ∈ names, '/' ∉ name.toList)
    (hnames : ∀ name ∈ names, name ≠ "") : namedSegments (Text.join "/" names) = names := by
  unfold namedSegments
  cases names with
  | nil => rfl
  | cons first rest =>
    rw [segments_join (by simp) hslash, List.filter_eq_self]
    intro name hname
    exact decide_eq_true (hnames name hname)

theorem parent_join (hslash : ∀ name ∈ names, '/' ∉ name.toList) :
    parent (Text.join "/" names) = Text.join "/" names.dropLast := by
  unfold parent directories
  cases names with
  | nil => rfl
  | cons first rest => rw [segments_join (by simp) hslash]

theorem fileName_join {name : String} (hslash : ∀ segment ∈ names ++ [name], '/' ∉ segment.toList) :
    fileName (Text.join "/" (names ++ [name])) = name := by
  rw [fileName, segments_join (by simp) hslash, List.getLast?_concat, Option.getD_some]

theorem join_ne_empty (hne : names ≠ []) (hnames : ∀ name ∈ names, name ≠ "") :
    Text.join "/" names ≠ "" := by
  cases names with
  | nil => exact absurd rfl hne
  | cons first rest => exact Text.join_cons_ne_empty "/" (hnames first List.mem_cons_self) rest

theorem IsNormal.ne_empty (h : IsNormal path) : path ≠ "" := by
  rintro rfl
  have hname : IsName "" := h "" List.mem_cons_self
  exact hname.1 rfl

/-- The directories of a normal path are names without separators. -/
theorem IsNormal.directory (h : IsNormal path) {name : String} (hname : name ∈ directories path) :
    '/' ∉ name.toList ∧ IsName name := by
  have hsegment := mem_segments_of_mem_directories hname
  exact ⟨slash_not_mem hsegment, h name hsegment⟩

/-- The directory of a path and a path below it make the path. -/
theorem child_join (hnames : ∀ name ∈ above, name ≠ "") (hdown : Text.join "/" down ≠ "") :
    child (Text.join "/" above) (Text.join "/" down) = Text.join "/" (above ++ down) := by
  have hne : down ≠ [] := by
    rintro rfl
    exact hdown rfl
  by_cases habove : above = []
  · rw [habove]
    rfl
  · rw [child, if_neg (join_ne_empty habove hnames), if_neg hdown,
      Text.join_append "/" habove hne]

/-- The directories of a file do not change with the end of its name. -/
theorem directories_append (path : String) {tail : String} (htail : '/' ∉ tail.toList) :
    directories (path ++ tail) = directories path := by
  have hjoin : path ++ tail = Text.join "/" (directories path ++ [fileName path ++ tail]) := by
    rw [Text.join_concat_append, directories_concat_fileName, join_segments]
  have hslash : ∀ segment ∈ directories path ++ [fileName path ++ tail], '/' ∉ segment.toList := by
    intro segment hsegment
    rcases List.mem_append.mp hsegment with hdirectory | hlast
    · exact slash_not_mem (mem_segments_of_mem_directories hdirectory)
    · have hname : fileName path ∈ segments path := by
        rw [← directories_concat_fileName]
        simp
      rw [List.mem_singleton.mp hlast, String.toList_append, List.mem_append, not_or]
      exact ⟨slash_not_mem hname, htail⟩
  rw [hjoin, directories, segments_join (by simp) hslash, List.dropLast_concat]

/-! ## Relative paths -/

/-- The number of steps up from the directory of a file to a directory above it, which is given by
its segments. -/
def stepsUp (above : List String) (file : String) : ℕ := (directories file).length - above.length

/-- The segments of a path below a directory above it. -/
def segmentsBelow (above : List String) (path : String) : List String :=
  (segments path).drop above.length

theorem mem_segments_of_mem_segmentsBelow {segment : String}
    (h : segment ∈ segmentsBelow above path) : segment ∈ segments path :=
  List.mem_of_mem_drop h

/-- The directories of a file below a directory above it are as many as the steps up. -/
theorem directories_eq_append (h : above <+: directories path) :
    ∃ inner, directories path = above ++ inner ∧ stepsUp above path = inner.length := by
  obtain ⟨inner, hinner⟩ := h
  refine ⟨inner, hinner.symm, ?_⟩
  rw [stepsUp, ← hinner, List.length_append, Nat.add_sub_cancel_left]

/-- Below a directory above it, a file has some directories and its name. -/
theorem segmentsBelow_eq (h : directories path = above ++ inner) :
    segmentsBelow above path = inner ++ [fileName path] := by
  rw [segmentsBelow, ← directories_concat_fileName, h, List.append_assoc, List.drop_left]

theorem append_segmentsBelow (h : above <+: directories path) :
    above ++ segmentsBelow above path = segments path := by
  obtain ⟨inner, hinner, -⟩ := directories_eq_append h
  rw [segmentsBelow_eq hinner, ← List.append_assoc, ← hinner, directories_concat_fileName]

/-- The relative path with some steps up and some segments down. Without steps up it starts with a
point. -/
def relative (hops : ℕ) (down : List String) : String :=
  Text.join "/" ((if hops = 0 then ["."] else List.replicate hops "..") ++ down)

/-- A relative path starts with a point. -/
theorem head?_relative (hops : ℕ) (down : List String) :
    (relative hops down).toList.head? = some '.' := by
  unfold relative
  cases hops with
  | zero => exact Text.head?_join "/" (by decide) down
  | succ hops => exact Text.head?_join "/" (by decide) _

theorem segments_relative {hops : ℕ} (hslash : ∀ name ∈ down, '/' ∉ name.toList) :
    segments (relative hops down)
      = (if hops = 0 then ["."] else List.replicate hops "..") ++ down := by
  refine segments_join ?_ ?_
  · split
    · simp
    · rename_i hhops
      simp [hhops]
  · intro segment hsegment
    rcases List.mem_append.mp hsegment with hstep | hdown
    · split at hstep
      · rw [List.mem_singleton.mp hstep]
        decide
      · rw [List.eq_of_mem_replicate hstep]
        decide
    · exact hslash segment hdown

/-- Names are followed down. -/
theorem follow_names (inside : List String) (hops : ℕ) (hdown : ∀ name ∈ down, IsName name) :
    follow inside hops down = some (inside.reverse ++ down, hops) := by
  induction down generalizing inside with
  | nil => simp [follow]
  | cons name down ih =>
    obtain ⟨⟨hempty, hpoint, hstep⟩, hrest⟩ := List.forall_mem_cons.mp hdown
    simp only [follow, hempty, hpoint, hstep, or_self, if_false]
    rw [ih (name :: inside) hrest, List.reverse_cons, List.append_assoc, List.singleton_append]

/-- Steps up take off the innermost directories, one each. -/
theorem follow_steps (inner outside : List String) (hops : ℕ) (rest : List String) :
    follow (inner ++ outside) hops (List.replicate inner.length ".." ++ rest)
      = follow outside (hops + inner.length) rest := by
  induction inner generalizing hops with
  | nil => rfl
  | cons name inner ih =>
    rw [List.length_cons, List.replicate_succ, List.cons_append, List.cons_append, follow,
      if_neg (by decide), if_pos rfl]
    simp only [ih]
    rw [Nat.add_right_comm, Nat.add_assoc]

/-- The steps of a relative path lead from a directory to the one above it. -/
theorem follow_relative (above inner : List String) (down : List String) :
    follow (above ++ inner).reverse 0
        ((if inner.length = 0 then ["."] else List.replicate inner.length "..") ++ down)
      = follow above.reverse inner.length down := by
  by_cases hinner : inner.length = 0
  · rw [List.length_eq_zero_iff] at hinner
    rw [hinner, List.append_nil]
    simp [follow]
  · have hlength : inner.reverse.length = inner.length := List.length_reverse
    rw [if_neg hinner, List.reverse_append, ← hlength, follow_steps, Nat.zero_add]

/-- A relative path leads where it says: up to the directory and down the segments. -/
theorem resolve?_relative (hslash : ∀ name ∈ above ++ inner, '/' ∉ name.toList)
    (hnames : ∀ name ∈ above ++ inner, name ≠ "") (hslash' : ∀ name ∈ down, '/' ∉ name.toList)
    (hdown : ∀ name ∈ down, IsName name) :
    resolve? (Text.join "/" (above ++ inner)) (relative inner.length down)
      = some ⟨Text.join "/" (above ++ down), inner.length⟩ := by
  rw [resolve?, namedSegments_join hslash hnames, segments_relative hslash', follow_relative,
    follow_names _ _ hdown, List.reverse_reverse]
  rfl

/-- Climbing takes off the innermost directories, one for each step. -/
theorem climb?_join (hslash : ∀ name ∈ above ++ inner, '/' ∉ name.toList)
    (hnames : ∀ name ∈ above ++ inner, name ≠ "") :
    climb? (Text.join "/" (above ++ inner)) inner.length = some (Text.join "/" above) := by
  induction inner using List.reverseRecOn with
  | nil => rw [List.append_nil]; rfl
  | append_singleton inner name ih =>
    rw [← List.append_assoc] at hslash hnames
    have hne : Text.join "/" (above ++ inner ++ [name]) ≠ "" := join_ne_empty (by simp) hnames
    rw [← List.append_assoc, List.length_append, List.length_singleton, climb?, if_neg hne,
      parent_join hslash, List.dropLast_concat]
    refine ih (fun name hname => ?_) fun name hname => ?_
    · exact hslash name (List.mem_append_left _ hname)
    · exact hnames name (List.mem_append_left _ hname)

/-! ## Relative dotted names -/

/-- The dotted name with some steps up and some segments down. It starts with a point, and with one
more for each step. -/
def relativeDotted (hops : ℕ) (down : List String) : String :=
  String.ofList (List.replicate (hops + 1) '.') ++ Text.join "." down

/-- Segments without points are those of their dotted name. -/
theorem ofDotted_join (hne : down ≠ []) (hpoint : ∀ name ∈ down, '.' ∉ name.toList) :
    ofDotted (Text.join "." down) = Text.join "/" down := by
  have hsplit : Text.split '.' (Text.join "." down) = down := Text.split_join hne hpoint
  rw [ofDotted, hsplit]

/-- A run of one character ends where the next character is another one. -/
theorem takeWhile_replicate_append {c : Char} (n : ℕ) {rest : List Char}
    (hrest : rest.head? ≠ some c) :
    (List.replicate n c ++ rest).takeWhile (· == c) = List.replicate n c ∧
      (List.replicate n c ++ rest).dropWhile (· == c) = rest := by
  refine Text.takeWhile_run (fun d hd => ?_) fun d hd => ?_
  · exact beq_iff_eq.mpr (List.eq_of_mem_replicate hd)
  · rw [beq_eq_false_iff_ne]
    rintro rfl
    exact hrest hd

/-- The points of a relative dotted name are those of its steps if a name without points follows. -/
theorem points_relativeDotted (hops : ℕ) {first : String} (hfirst : first ≠ "")
    (hpoint : '.' ∉ first.toList) (rest : List String) :
    let source := relativeDotted hops (first :: rest)
    (source.toList.takeWhile (· == '.')).length = hops + 1 ∧
      String.ofList (source.toList.dropWhile (· == '.')) = Text.join "." (first :: rest) := by
  intro source
  have hhead : (Text.join "." (first :: rest)).toList.head? ≠ some '.' := by
    rw [Text.head?_join "." hfirst]
    intro hhead
    exact hpoint (List.mem_of_head? hhead)
  have hsource : source.toList
      = List.replicate (hops + 1) '.' ++ (Text.join "." (first :: rest)).toList := by
    simp [source, relativeDotted]
  obtain ⟨htake, hdrop⟩ := takeWhile_replicate_append (hops + 1) hhead
  rw [hsource, htake, hdrop]
  exact ⟨List.length_replicate, String.ofList_toList⟩

end ModuleAtlas.Path
