import Mathlib.Data.Finset.Card
import ModuleAtlas.Proofs.Graph.Exploration

/-!
# Depth-first preorder

The recursive depth-first search lists a module, then all that can be listed from its first
successor on, then from the next one, and so on. It needs no stack: what one successor has listed is
taken out of the set in which the next one is searched. The search explores that set
(`explores_preorder`), and whatever it lists is a start or a successor of something listed before
(`exists_earlier_of_preorder_eq`).
-/

namespace ModuleAtlas.Graph

variable {next : String → List String} {unlisted : Finset String} {starts : List String}
  {id : String}

/-- The depth-first preorder from some starts among the modules that are not listed yet. -/
def preorder (next : String → List String) (unlisted : Finset String) : List String → List String
  | [] => []
  | id :: rest =>
    if id ∈ unlisted then
      let below := preorder next (unlisted.erase id) (next id)
      id :: (below ++ preorder next (unlisted.erase id \ below.toFinset) rest)
    else preorder next unlisted rest
termination_by starts => (unlisted.card, starts.length)
decreasing_by
  · exact Prod.Lex.left _ _ (Finset.card_erase_lt_of_mem ‹_›)
  · refine Prod.Lex.left _ _ (lt_of_le_of_lt (Finset.card_le_card Finset.sdiff_subset) ?_)
    exact Finset.card_erase_lt_of_mem ‹_›
  · exact Prod.Lex.right _ (Nat.lt_succ_self _)

/-- The search goes on with further starts in what the first ones have left. -/
theorem preorder_append (next : String → List String) (unlisted : Finset String)
    (starts more : List String) :
    preorder next unlisted (starts ++ more)
      = preorder next unlisted starts
        ++ preorder next (unlisted \ (preorder next unlisted starts).toFinset) more := by
  fun_induction preorder next unlisted starts with
  | case1 unlisted => simp
  | case2 unlisted id rest hid below ihBelow ihRest =>
    have hleft : (unlisted.erase id \ below.toFinset)
          \ (preorder next (unlisted.erase id \ below.toFinset) rest).toFinset
        = unlisted \ (id :: (below
            ++ preorder next (unlisted.erase id \ below.toFinset) rest)).toFinset := by
      ext x
      simp only [Finset.mem_sdiff, Finset.mem_erase, List.mem_toFinset, List.mem_cons,
        List.mem_append, not_or]
      tauto
    rw [List.cons_append, preorder, if_pos hid]
    dsimp only
    rw [ihRest, hleft, List.cons_append, List.append_assoc]
  | case3 unlisted id rest hid ih =>
    rw [List.cons_append, preorder, if_neg hid, ih]

/-- Starts that are listed already can be left out. -/
theorem preorder_filter {p : String → Bool} (hp : ∀ x ∈ unlisted, p x = true) :
    preorder next unlisted (starts.filter p) = preorder next unlisted starts := by
  fun_induction preorder next unlisted starts with
  | case1 unlisted => rw [List.filter_nil, preorder]
  | case2 unlisted id rest hid below ihBelow ihRest =>
    rw [List.filter_cons_of_pos (hp id hid), preorder, if_pos hid]
    refine congrArg (fun after => id :: (below ++ after)) (ihRest fun x hx => ?_)
    exact hp x (Finset.mem_of_mem_erase (Finset.mem_sdiff.mp hx).1)
  | case3 unlisted id rest hid ih =>
    rw [List.filter_cons]
    split
    · rw [preorder, if_neg hid, ih hp]
    · exact ih hp

/-- In a set that the search does not leave, it matters only which of its members are listed. -/
theorem preorder_congr {within : List String} {others : Finset String}
    (hstarts : ∀ x ∈ starts, x ∈ within) (hnext : ∀ x ∈ within, ∀ y ∈ next x, y ∈ within)
    (hsame : ∀ x ∈ within, x ∈ unlisted ↔ x ∈ others) :
    preorder next unlisted starts = preorder next others starts := by
  fun_induction preorder next unlisted starts generalizing others with
  | case1 unlisted => rw [preorder]
  | case2 unlisted id rest hid below ihBelow =>
    rename_i ihRest
    obtain ⟨hin, hrest⟩ := List.forall_mem_cons.mp hstarts
    have herase : ∀ x ∈ within, x ∈ unlisted.erase id ↔ x ∈ others.erase id := by
      intro x hx
      rw [Finset.mem_erase, Finset.mem_erase, hsame x hx]
    have hbelow : below = preorder next (others.erase id) (next id) := ihBelow (hnext id hin) herase
    rw [preorder, if_pos ((hsame id hin).mp hid)]
    dsimp only
    rw [← hbelow, ihRest hrest fun x hx => ?_]
    rw [Finset.mem_sdiff, Finset.mem_sdiff, herase x hx]
  | case3 unlisted id rest hid ih =>
    obtain ⟨hin, hrest⟩ := List.forall_mem_cons.mp hstarts
    rw [preorder, if_neg (mt (hsame id hin).mpr hid)]
    exact ih hrest hsame

/-- The search explores from its starts whatever is not listed. -/
theorem explores_preorder (next : String → List String) (unlisted : Finset String)
    (starts : List String) :
    Explores next starts {x | x ∉ unlisted} (preorder next unlisted starts) := by
  fun_induction preorder next unlisted starts with
  | case1 unlisted => exact .nil
  | case2 unlisted id rest hid below ihBelow ihRest =>
    have hinsert : insert id {x | x ∉ unlisted} = {x | x ∉ unlisted.erase id} := by
      ext x
      simp only [Set.mem_insert_iff, Set.mem_ofPred_eq, Finset.mem_erase, not_and_or, not_not]
    have hunion : {x | x ∉ unlisted.erase id} ∪ {x | x ∈ below}
        = {x | x ∉ unlisted.erase id \ below.toFinset} := by
      ext x
      simp only [Set.mem_union, Set.mem_ofPred_eq, Finset.mem_sdiff, List.mem_toFinset, not_and_or,
        not_not]
    refine Explores.cons ?_ (fun hmem => hmem hid)
    rw [hinsert]
    exact ihBelow.append (hunion ▸ ihRest)
  | case3 unlisted id rest hid ih => exact ih.skip hid

/-- Whatever the search lists is one of its starts or a successor of something listed before. -/
theorem exists_earlier_of_preorder_eq : ∀ {before after : List String},
    preorder next unlisted starts = before ++ id :: after →
      id ∈ starts ∨ ∃ earlier ∈ before, id ∈ next earlier := by
  fun_induction preorder next unlisted starts with
  | case1 unlisted => simp
  | case2 unlisted start rest hstart below ihBelow =>
    rename_i ihRest
    intro before after h
    cases before with
    | nil =>
      obtain ⟨rfl, -⟩ := List.cons.inj h
      exact Or.inl List.mem_cons_self
    | cons first before =>
      obtain ⟨rfl, htail⟩ := List.cons.inj h
      rcases List.append_eq_append_iff.mp htail with ⟨later, rfl, hrest⟩ | ⟨later, hbelow, hlater⟩
      · rcases ihRest hrest with hmem | ⟨earlier, hearlier, hnext⟩
        · exact Or.inl (List.mem_cons_of_mem start hmem)
        · refine Or.inr ⟨earlier, List.mem_cons_of_mem start ?_, hnext⟩
          exact List.mem_append_right _ hearlier
      · cases later with
        | nil =>
          have hstart : preorder next _ _ = [] ++ id :: after := hlater.symm
          rcases ihRest hstart with hmem | ⟨earlier, hearlier, -⟩
          · exact Or.inl (List.mem_cons_of_mem start hmem)
          · cases hearlier
        | cons first later =>
          -- listed below the start, whose successors come after it
          obtain ⟨rfl, -⟩ := List.cons.inj hlater
          rcases ihBelow hbelow with hmem | ⟨earlier, hearlier, hnext⟩
          · exact Or.inr ⟨start, List.mem_cons_self, hmem⟩
          · exact Or.inr ⟨earlier, List.mem_cons_of_mem start hearlier, hnext⟩
  | case3 unlisted start rest hstart ih =>
    intro before after h
    exact (ih h).imp_left (List.mem_cons_of_mem start)

end ModuleAtlas.Graph
