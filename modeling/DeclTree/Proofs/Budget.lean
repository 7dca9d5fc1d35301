import DeclTree.Proofs.Depth
/-!
Walks that end, in arenas whose links may lead anywhere. A walk with a stack comes to the answer that
the search by recursion comes to, and the budget of an arena is enough for every walk that ends with
any number of steps.
-/
namespace DeclTree.Walk
variable {next : NodeIndex → NodeList} {p : NodeIndex → Bool}

/-- Whether a node that satisfies `p` is met at a node or below it, if the depth is enough to tell. -/
def meetsFrom (next : NodeIndex → NodeList) (p : NodeIndex → Bool) : Nat → NodeIndex → Option Bool
  | 0, _ => none
  | depth + 1, i => if p i then some true else (next i).anyM (meetsFrom next p depth)

section AnyM
variable {f g : NodeIndex → Option Bool} {i : NodeIndex} {roots : NodeList} {found : Bool}

theorem anyM_cons_of_true (h : f i = some true) (rest : NodeList) :
    (i :: rest).anyM f = some true := by
  rw [List.anyM_cons, h]
  rfl

theorem anyM_cons_of_false (h : f i = some false) (rest : NodeList) :
    (i :: rest).anyM f = rest.anyM f := by
  rw [List.anyM_cons, h]
  rfl

theorem anyM_cons_eq_some {rest : NodeList} (h : (i :: rest).anyM f = some found) :
    (f i = some true ∧ found = true) ∨ (f i = some false ∧ rest.anyM f = some found) := by
  cases hi : f i with
  | none =>
    rw [List.anyM_cons, hi] at h
    cases h
  | some b =>
    cases b with
    | true =>
      rw [anyM_cons_of_true hi] at h
      exact .inl ⟨rfl, (Option.some.inj h).symm⟩
    | false =>
      rw [anyM_cons_of_false hi] at h
      exact .inr ⟨rfl, h⟩

theorem anyM_of_le (hfg : ∀ i ∈ roots, ∀ b, f i = some b → g i = some b)
    (h : roots.anyM f = some found) : roots.anyM g = some found := by
  induction roots with
  | nil => exact h
  | cons i rest ih =>
    have hi := hfg i List.mem_cons_self
    obtain ⟨hf, rfl⟩ | ⟨hf, hrest⟩ := anyM_cons_eq_some h
    · exact anyM_cons_of_true (hi true hf) rest
    · rw [anyM_cons_of_false (hi false hf)]
      exact ih (fun j hj => hfg j (List.mem_cons_of_mem i hj)) hrest

end AnyM

section Search
variable {m n : Nat} {i : NodeIndex} {b : Bool}

theorem meetsFrom_step
    (hbelow : ∀ j ∈ next i, ∀ b, meetsFrom next p m j = some b → meetsFrom next p n j = some b)
    (h : meetsFrom next p (m + 1) i = some b) : meetsFrom next p (n + 1) i = some b := by
  unfold meetsFrom at h ⊢
  split at h
  · rename_i hp
    rwa [if_pos hp]
  · rename_i hp
    rw [if_neg hp]
    exact anyM_of_le hbelow h

theorem meetsFrom_mono (hmn : m ≤ n) (h : meetsFrom next p m i = some b) :
    meetsFrom next p n i = some b := by
  induction m generalizing n i b with
  | zero => cases h
  | succ m ih =>
    obtain ⟨n, rfl⟩ : ∃ k, n = k + 1 := ⟨n - 1, by omega⟩
    exact meetsFrom_step (fun j _ b hj => ih (by omega) hj) h

theorem meetsFrom_unique {c : Bool} (h : meetsFrom next p m i = some b)
    (hc : meetsFrom next p n i = some c) : b = c := by
  have hm := meetsFrom_mono (Nat.le_max_left m n) h
  have hn := meetsFrom_mono (Nat.le_max_right m n) hc
  exact Option.some.inj (hm.symm.trans hn)

theorem meetsFrom_of_nil (hi : next i = []) (depth : Nat) :
    meetsFrom next p (depth + 1) i = some (p i) := by
  unfold meetsFrom
  cases hp : p i with
  | true => rfl
  | false => simp [hi]

theorem meetsFrom_deepens {a : Arena} (hnext : ∀ i, a.get? i = none → next i = []) :
    a.Deepens fun depth i => ∃ b, meetsFrom next p (depth + 1) i = some b where
  grows := fun depth i ⟨b, h⟩ => ⟨b, meetsFrom_mono (Nat.le_succ _) h⟩
  outside depth i hget := ⟨p i, meetsFrom_of_nil (hnext i hget) depth⟩
  step m n i hbelow := fun ⟨b, h⟩ => by
    refine ⟨b, meetsFrom_step (fun j _ found hj => ?_) h⟩
    obtain ⟨other, hother⟩ := hbelow j ⟨found, hj⟩
    rw [meetsFrom_unique hj hother, hother]

end Search

section Stack
variable {roots rest stack : NodeList} {i : NodeIndex} {b : Bool} {m n cost costRest : Nat}

theorem meets?_mono (hmn : m ≤ n) (h : meets? next p m stack = some b) :
    meets? next p n stack = some b := by
  induction m generalizing n stack with
  | zero =>
    cases stack with
    | nil => cases n <;> exact h
    | cons i rest => cases h
  | succ m ih =>
    obtain ⟨n, rfl⟩ : ∃ k, n = k + 1 := ⟨n - 1, by omega⟩
    cases stack with
    | nil => exact h
    | cons i rest =>
      unfold meets? at h ⊢
      split at h
      · rename_i hp
        rwa [if_pos hp]
      · rename_i hp
        rw [if_neg hp]
        exact ih (by omega) h

/-- Wherever some nodes lie on top of a stack, that many steps settle whether they lead to a node that
satisfies `p`. If they do, that is the answer, and otherwise the walk goes on below them. -/
def Settles (next : NodeIndex → NodeList) (p : NodeIndex → Bool) (roots : NodeList) (found : Bool)
    (cost : Nat) : Prop :=
  ∀ (steps : Nat) (stack : NodeList), meets? next p (cost + steps) (roots ++ stack) =
    if found then some true else meets? next p steps stack

theorem settles_nil : Settles next p [] false 0 := by
  intro steps stack
  rw [Nat.zero_add]
  rfl

theorem Settles.cons (hfirst : Settles next p [i] false cost)
    (hrest : Settles next p rest b costRest) :
    Settles next p (i :: rest) b (cost + costRest) := by
  intro steps stack
  have hstep := hfirst (costRest + steps) (rest ++ stack)
  rw [Nat.add_assoc]
  exact hstep.trans (hrest steps stack)

theorem Settles.cons_found (hfirst : Settles next p [i] true cost) (rest : NodeList) :
    Settles next p (i :: rest) true cost :=
  fun steps stack => hfirst steps (rest ++ stack)

theorem settles_of_found (hp : p i = true) : Settles next p [i] true 1 := by
  intro steps stack
  rw [Nat.add_comm]
  simp [meets?, hp]

theorem Settles.step (hp : p i = false) (hbelow : Settles next p (next i) b cost) :
    Settles next p [i] b (1 + cost) := by
  intro steps stack
  have hstep := hbelow steps stack
  rw [Nat.add_assoc, Nat.add_comm]
  simpa [meets?, hp] using hstep

theorem exists_settles_list {f : NodeIndex → Option Bool} {bound : Nat}
    (hsingle : ∀ i ∈ roots, ∀ b, f i = some b → ∃ cost ≤ bound, Settles next p [i] b cost)
    (h : roots.anyM f = some b) : ∃ cost ≤ roots.length * bound, Settles next p roots b cost := by
  induction roots with
  | nil =>
    cases h
    exact ⟨0, Nat.zero_le _, settles_nil⟩
  | cons i rest ih =>
    obtain ⟨hi, rfl⟩ | ⟨hi, hrest⟩ := anyM_cons_eq_some h
    · obtain ⟨cost, hcost, hfirst⟩ := hsingle i List.mem_cons_self true hi
      refine ⟨cost, ?_, hfirst.cons_found rest⟩
      rw [List.length_cons, Nat.add_mul, Nat.one_mul]
      omega
    · obtain ⟨cost, hcost, hfirst⟩ := hsingle i List.mem_cons_self false hi
      obtain ⟨costRest, hcostRest, hlater⟩ :=
        ih (fun j hj => hsingle j (List.mem_cons_of_mem i hj)) hrest
      refine ⟨cost + costRest, ?_, hfirst.cons hlater⟩
      rw [List.length_cons, Nat.add_mul, Nat.one_mul]
      omega

/-- What the search settles at a depth the walk settles too, in a number of steps that the depth
bounds. -/
theorem exists_settles {base depth : Nat} (hbase : ∀ i, (next i).length < base)
    (h : meetsFrom next p (depth + 1) i = some b) :
    ∃ cost ≤ Nat.pow base depth, Settles next p [i] b cost := by
  induction depth generalizing i b with
  | zero =>
    unfold meetsFrom at h
    split at h
    · rename_i hp
      cases h
      exact ⟨1, Nat.le_refl 1, settles_of_found hp⟩
    · rename_i hp
      cases hi : next i with
      | nil =>
        rw [hi] at h
        cases h
        exact ⟨1, Nat.le_refl 1, .step (by simpa using hp) (hi ▸ settles_nil)⟩
      | cons j rest =>
        rw [hi] at h
        cases h
  | succ depth ih =>
    have hpos : 1 ≤ Nat.pow base depth :=
      Nat.pow_pos (Nat.lt_of_le_of_lt (Nat.zero_le _) (hbase i))
    have hwidth : ((next i).length + 1) * Nat.pow base depth ≤ Nat.pow base (depth + 1) := by
      have hmul := Nat.mul_le_mul_right (Nat.pow base depth) (hbase i)
      rwa [Nat.mul_comm base] at hmul
    rw [Nat.add_mul, Nat.one_mul] at hwidth
    rw [meetsFrom] at h
    split at h
    · rename_i hp
      cases h
      exact ⟨1, by omega, settles_of_found hp⟩
    · rename_i hp
      obtain ⟨cost, hcost, hbelow⟩ := exists_settles_list (fun j _ b hj => ih hj) h
      exact ⟨1 + cost, by omega, .step (by simpa using hp) hbelow⟩

end Stack

section Ends
variable {roots stack : NodeList} {b : Bool} {n : Nat}

/-- A walk that ends has searched the nodes on top of its stack, or has met what it looked for. -/
theorem exists_search (h : (meets? next p n (roots ++ stack)).isSome) :
    ∃ depth found, roots.anyM (meetsFrom next p depth) = some found ∧
      (found = false → ∃ k ≤ n, (meets? next p k stack).isSome) := by
  induction n using Nat.strong_induction_on generalizing roots stack with
  | _ n ih =>
    cases roots with
    | nil => exact ⟨0, false, rfl, fun _ => ⟨n, Nat.le_refl n, h⟩⟩
    | cons i rest =>
      cases n with
      | zero => cases h
      | succ n =>
        rw [List.cons_append, meets?] at h
        split at h
        · rename_i hp
          have hi : meetsFrom next p 1 i = some true := by simp [meetsFrom, hp]
          exact ⟨1, true, anyM_cons_of_true hi rest, fun hfalse => by cases hfalse⟩
        · rename_i hp
          obtain ⟨depth, found, hbelow, hgo⟩ := ih n (Nat.lt_succ_self n) h
          have hi : meetsFrom next p (depth + 1) i = some found := by simp [meetsFrom, hp, hbelow]
          cases found with
          | true =>
            exact ⟨depth + 1, true, anyM_cons_of_true hi rest, fun hfalse => by cases hfalse⟩
          | false =>
            obtain ⟨k, hk, hlater⟩ := hgo rfl
            obtain ⟨depthRest, foundRest, hrest, hstack⟩ := ih k (by omega) hlater
            refine ⟨max (depth + 1) depthRest, foundRest, ?_, fun hfalse => ?_⟩
            · rw [anyM_cons_of_false (meetsFrom_mono (Nat.le_max_left _ _) hi)]
              exact anyM_of_le (fun j _ b hj => meetsFrom_mono (Nat.le_max_right _ _) hj) hrest
            · obtain ⟨l, hl, hend⟩ := hstack hfalse
              exact ⟨l, by omega, hend⟩

/-- A walk that ends with some number of steps ends within the budget of the arena. -/
theorem meets?_walkBudget {a : Arena} (hnext : ∀ i, (next i).Sublist (a.links i))
    (h : meets? next p n roots = some b) :
    meets? next p (a.walkBudget roots) roots = some b := by
  have hout : ∀ i, a.get? i = none → next i = [] := fun i hget =>
    List.eq_nil_of_sublist_nil (Arena.links_eq_nil_of_get? hget ▸ hnext i)
  have hbase (i : NodeIndex) : (next i).length < roots.length + a.linkCount + 2 := by
    have := (hnext i).length_le
    have := a.length_links_le i
    omega
  have hends : (meets? next p n (roots ++ [])).isSome := by simp [h]
  obtain ⟨depth, found, hsearch, -⟩ := exists_search hends
  have hsingle : ∀ i ∈ roots, ∀ b, meetsFrom next p depth i = some b →
      ∃ cost ≤ Nat.pow (roots.length + a.linkCount + 2) a.size, Settles next p [i] b cost := by
    intro i _ b hi
    have hdone : ∃ b, meetsFrom next p (depth + 1) i = some b :=
      ⟨b, meetsFrom_mono (Nat.le_succ depth) hi⟩
    obtain ⟨other, hother⟩ := (meetsFrom_deepens hout).done_size hdone
    rw [meetsFrom_unique hi hother]
    exact exists_settles hbase hother
  obtain ⟨cost, hcost, hsettles⟩ := exists_settles_list hsingle hsearch
  have hbudget : cost ≤ a.walkBudget roots :=
    calc cost
      _ ≤ roots.length * Nat.pow (roots.length + a.linkCount + 2) a.size := hcost
      _ ≤ (roots.length + a.linkCount + 2) * Nat.pow (roots.length + a.linkCount + 2) a.size :=
        Nat.mul_le_mul_right _ (by omega)
      _ = a.walkBudget roots := Nat.mul_comm _ _
  -- both the given number of steps and the cost give the answer, so the answers agree
  have hanswer : meets? next p cost roots = some found := by
    have hall := hsettles 0 []
    rw [List.append_nil, Nat.add_zero] at hall
    rw [hall]
    cases found <;> rfl
  have hsame := (meets?_mono (Nat.le_max_left n cost) h).symm.trans
    (meets?_mono (Nat.le_max_right n cost) hanswer)
  rw [Option.some.inj hsame]
  exact meets?_mono hbudget hanswer

end Ends

section Visits
variable {roots visits : NodeList} {n : Nat}

theorem isSome_visited? (next : NodeIndex → NodeList) (n : Nat) (roots : NodeList) :
    (visited? next n roots).isSome = (meets? next (fun _ => false) n roots).isSome := by
  induction n generalizing roots with
  | zero => cases roots <;> rfl
  | succ n ih =>
    cases roots with
    | nil => rfl
    | cons i rest => simpa [visited?, meets?] using ih (next i ++ rest)

theorem visited?_walkBudget {a : Arena} (hnext : ∀ i, (next i).Sublist (a.links i))
    (h : visited? next n roots = some visits) :
    visited? next (a.walkBudget roots) roots = some visits := by
  have hends : (meets? next (fun _ => false) n roots).isSome := by
    rw [← isSome_visited?, h]
    rfl
  obtain ⟨b, hb⟩ := Option.isSome_iff_exists.1 hends
  have hbudget : (visited? next (a.walkBudget roots) roots).isSome := by
    rw [isSome_visited?, meets?_walkBudget hnext hb]
    rfl
  obtain ⟨others, hothers⟩ := Option.isSome_iff_exists.1 hbudget
  rw [hothers, (preorder_of_visited? hothers).unique (preorder_of_visited? h)]

end Visits

section Renaming
variable {next next' : NodeIndex → NodeList} {p p' : NodeIndex → Bool} {f : NodeIndex → NodeIndex}

theorem visited?_map (hstep : ∀ i, next' (f i) = (next i).map f) (n : Nat) (roots : NodeList) :
    visited? next' n (roots.map f) = (visited? next n roots).map (·.map f) := by
  induction n generalizing roots with
  | zero => cases roots <;> rfl
  | succ n ih =>
    cases roots with
    | nil => rfl
    | cons i rest =>
      have hrest := ih (next i ++ rest)
      rw [List.map_append, ← hstep] at hrest
      rw [List.map_cons, visited?, visited?, hrest, Option.map_map, Option.map_map]
      rfl

theorem meets?_map (hstep : ∀ i, next' (f i) = (next i).map f) (hp : ∀ i, p' (f i) = p i)
    (n : Nat) (roots : NodeList) : meets? next' p' n (roots.map f) = meets? next p n roots := by
  induction n generalizing roots with
  | zero => cases roots <;> rfl
  | succ n ih =>
    cases roots with
    | nil => rfl
    | cons i rest =>
      have hrest := ih (next i ++ rest)
      rw [List.map_append, ← hstep] at hrest
      rw [List.map_cons, meets?, meets?, hrest, hp]

variable {a a' : Arena}

/-- The budgets of two arenas are both enough, so a walk comes to the same end in both. -/
theorem visited?_walkBudget_map (hnext : ∀ i, (next i).Sublist (a.links i))
    (hnext' : ∀ i, (next' i).Sublist (a'.links i)) (hstep : ∀ i, next' (f i) = (next i).map f)
    (roots : NodeList) : visited? next' (a'.walkBudget (roots.map f)) (roots.map f) =
      (visited? next (a.walkBudget roots) roots).map (·.map f) := by
  refine Option.ext fun visits => ⟨fun h => ?_, fun h => ?_⟩
  · rw [visited?_map hstep] at h
    obtain ⟨others, hothers, rfl⟩ := Option.map_eq_some_iff.1 h
    rw [visited?_walkBudget hnext hothers, Option.map_some]
  · rw [← visited?_map hstep] at h
    exact visited?_walkBudget hnext' h

theorem meets?_walkBudget_map (hnext : ∀ i, (next i).Sublist (a.links i))
    (hnext' : ∀ i, (next' i).Sublist (a'.links i)) (hstep : ∀ i, next' (f i) = (next i).map f)
    (hp : ∀ i, p' (f i) = p i) (roots : NodeList) :
    meets? next' p' (a'.walkBudget (roots.map f)) (roots.map f) =
      meets? next p (a.walkBudget roots) roots := by
  refine Option.ext fun b => ⟨fun h => ?_, fun h => ?_⟩
  · rw [meets?_map hstep hp] at h
    exact meets?_walkBudget hnext h
  · rw [← meets?_map hstep hp] at h
    exact meets?_walkBudget hnext' h

end Renaming

end DeclTree.Walk
