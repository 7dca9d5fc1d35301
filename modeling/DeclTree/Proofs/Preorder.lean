import DeclTree.Syntax.Walk
/-!
The order in which a walk visits nodes, said by recursion: a node, all that is below it, and then the
nodes after it. The walk with a stack visits the same nodes, and when links lead to lower ranks it
ends within a number of steps that depends only on ranks and on the length of lists.
-/
namespace DeclTree.Walk

/-- The visits that start from a list of nodes, in pre-order. -/
inductive Preorder (next : NodeIndex → NodeList) : NodeList → NodeList → Prop
  | nil : Preorder next [] []
  | cons {i : NodeIndex} {rest below later : NodeList} :
      Preorder next (next i) below → Preorder next rest later →
      Preorder next (i :: rest) (i :: (below ++ later))

/-- Every link leads to a node of lower rank. -/
def Lowers (next : NodeIndex → NodeList) (rank : NodeIndex → Nat) : Prop :=
  ∀ i j, j ∈ next i → rank j < rank i

variable {next : NodeIndex → NodeList} {rank : NodeIndex → Nat} {roots visits : NodeList}

theorem Reaches.tail {i j k : NodeIndex} (h : Reaches next i j) (hk : k ∈ next j) :
    Reaches next i k := by
  induction h with
  | refl => exact .step hk (.refl k)
  | step hj _ ih => exact .step hj (ih hk)

theorem count_flatMap_le_one {i m : NodeIndex} (hparent : ∀ k ∈ visits, m ∈ next k → k = i)
    (hi : visits.count i ≤ 1) (hm : (next i).count m ≤ 1) :
    (visits.flatMap next).count m ≤ 1 := by
  induction visits with
  | nil => simp
  | cons k rest ih =>
    have hrest : ∀ k ∈ rest, m ∈ next k → k = i :=
      fun j hj => hparent j (List.mem_cons_of_mem k hj)
    rw [List.flatMap_cons, List.count_append]
    by_cases hk : k = i
    · rw [hk, List.count_cons_self] at hi
      have hnot : i ∉ rest := List.count_eq_zero.1 (by omega)
      have hnone : (rest.flatMap next).count m = 0 := by
        refine List.count_eq_zero.2 fun hmem => ?_
        obtain ⟨j, hj, hnext⟩ := List.mem_flatMap.1 hmem
        exact hnot (hrest j hj hnext ▸ hj)
      rw [hk]
      omega
    · have hzero : (next k).count m = 0 :=
        List.count_eq_zero.2 fun hmem => hk (hparent k List.mem_cons_self hmem)
      have hcount : rest.count i ≤ 1 := by
        rw [List.count_cons_of_ne hk] at hi
        exact hi
      have := ih hrest hcount
      omega

namespace Preorder

theorem unique (h : Preorder next roots visits) {others : NodeList}
    (h' : Preorder next roots others) : visits = others := by
  induction h generalizing others with
  | nil => cases h'; rfl
  | cons _ _ ihBelow ihLater =>
    cases h' with
    | cons hbelow hlater => rw [ihBelow hbelow, ihLater hlater]

theorem append_split {more : NodeList} (h : Preorder next (roots ++ more) visits) :
    ∃ first later, Preorder next roots first ∧ Preorder next more later ∧
      visits = first ++ later := by
  induction roots generalizing visits with
  | nil => exact ⟨[], visits, .nil, h, rfl⟩
  | cons i rest ih =>
    cases h with
    | cons hbelow hlater =>
      obtain ⟨first, later, hfirst, hmore, rfl⟩ := ih hlater
      exact ⟨_, later, .cons hbelow hfirst, hmore, by simp⟩

theorem mem_of_mem_roots (h : Preorder next roots visits) {i : NodeIndex} (hi : i ∈ roots) :
    i ∈ visits := by
  induction h with
  | nil => cases hi
  | cons _ _ _ ihLater =>
    obtain rfl | hi := List.mem_cons.1 hi
    · exact List.mem_cons_self
    · exact List.mem_cons_of_mem _ (List.mem_append_right _ (ihLater hi))

theorem mem_of_mem_next (h : Preorder next roots visits) {i j : NodeIndex} (hi : i ∈ visits)
    (hj : j ∈ next i) : j ∈ visits := by
  induction h with
  | nil => cases hi
  | cons hbelow _ ihBelow ihLater =>
    obtain rfl | hi := List.mem_cons.1 hi
    · exact List.mem_cons_of_mem _ (List.mem_append_left _ (hbelow.mem_of_mem_roots hj))
    · obtain hi | hi := List.mem_append.1 hi
      · exact List.mem_cons_of_mem _ (List.mem_append_left _ (ihBelow hi))
      · exact List.mem_cons_of_mem _ (List.mem_append_right _ (ihLater hi))

theorem exists_reaches (h : Preorder next roots visits) {i : NodeIndex} (hi : i ∈ visits) :
    ∃ r ∈ roots, Reaches next r i := by
  induction h with
  | nil => cases hi
  | @cons k rest below later _ _ ihBelow ihLater =>
    obtain rfl | hi := List.mem_cons.1 hi
    · exact ⟨i, List.mem_cons_self, .refl i⟩
    · obtain hi | hi := List.mem_append.1 hi
      · obtain ⟨j, hj, hreach⟩ := ihBelow hi
        exact ⟨k, List.mem_cons_self, .step hj hreach⟩
      · obtain ⟨r, hr, hreach⟩ := ihLater hi
        exact ⟨r, List.mem_cons_of_mem _ hr, hreach⟩

theorem mem_iff (h : Preorder next roots visits) {i : NodeIndex} :
    i ∈ visits ↔ ∃ r ∈ roots, Reaches next r i := by
  refine ⟨h.exists_reaches, ?_⟩
  rintro ⟨r, hr, hreach⟩
  have hvisit : r ∈ visits := h.mem_of_mem_roots hr
  clear hr
  induction hreach with
  | refl => exact hvisit
  | step hj _ ih => exact ih (h.mem_of_mem_next hvisit hj)

/-- Nodes that no other node follows may be left out of every list. -/
theorem filter (h : Preorder next roots visits) {next' : NodeIndex → NodeList}
    {p : NodeIndex → Bool} (hnext : ∀ i, next' i = (next i).filter p)
    (hleaf : ∀ i, p i = false → next i = []) :
    Preorder next' (roots.filter p) (visits.filter p) := by
  induction h with
  | nil => exact .nil
  | @cons i rest below later hbelow _ ihBelow ihLater =>
    cases hi : p i with
    | true =>
      rw [List.filter_cons_of_pos hi, List.filter_cons_of_pos hi, List.filter_append]
      rw [← hnext] at ihBelow
      exact .cons ihBelow ihLater
    | false =>
      rw [hleaf i hi] at hbelow
      cases hbelow
      rwa [List.filter_cons_of_neg (by simp [hi]), List.filter_cons_of_neg (by simp [hi])]

/-- From the same nodes in another order a walk makes the same visits in another order. -/
theorem reorder {others : NodeList} (h : Preorder next roots visits) (hroots : roots.Perm others) :
    ∃ visits', Preorder next others visits' ∧ visits.Perm visits' := by
  induction hroots generalizing visits with
  | nil => exact ⟨visits, h, .refl visits⟩
  | cons i _ ih =>
    cases h with
    | cons hbelow hlater =>
      obtain ⟨later, hlater', hperm⟩ := ih hlater
      exact ⟨_, .cons hbelow hlater', (hperm.append_left _).cons i⟩
  | swap i j rest =>
    cases h with
    | @cons _ _ belowFirst _ hfirst hrest =>
      cases hrest with
      | @cons _ _ belowSecond later hsecond hlater =>
        refine ⟨_, .cons hsecond (.cons hfirst hlater), ?_⟩
        simpa only [List.cons_append, List.append_assoc] using
          List.perm_append_comm_assoc (j :: belowFirst) (i :: belowSecond) later
  | trans _ _ ih ih' =>
    obtain ⟨between, hbetween, hperm⟩ := ih h
    obtain ⟨visits', hvisits', hperm'⟩ := ih' hbetween
    exact ⟨visits', hvisits', hperm.trans hperm'⟩

/-- Every visit but those of the roots is one entry of what follows an earlier visit. -/
theorem perm (h : Preorder next roots visits) :
    visits.Perm (roots ++ visits.flatMap next) := by
  induction h with
  | nil => exact .refl _
  | @cons i rest below later _ _ ihBelow ihLater =>
    have hswap : ((next i ++ below.flatMap next) ++ (rest ++ later.flatMap next)).Perm
        (rest ++ ((next i ++ below.flatMap next) ++ later.flatMap next)) :=
      List.perm_append_comm_assoc _ _ _
    simp only [List.cons_append, List.flatMap_cons, List.flatMap_append]
    refine .cons i ((ihBelow.append ihLater).trans ?_)
    simpa only [List.append_assoc] using hswap

theorem mem_roots_or_next (h : Preorder next roots visits) {j : NodeIndex} (hj : j ∈ visits) :
    j ∈ roots ∨ ∃ i ∈ visits, j ∈ next i := by
  have hmem := h.perm.mem_iff.1 hj
  obtain hroot | hnext := List.mem_append.1 hmem
  · exact .inl hroot
  · exact .inr (List.mem_flatMap.1 hnext)

/-- Where no node is listed twice, no node is visited twice. -/
theorem nodup (h : Preorder next roots visits) (hroots : roots.Nodup)
    (hfresh : ∀ i ∈ visits, ∀ r ∈ roots, r ∉ next i) (hnext : ∀ i ∈ visits, (next i).Nodup)
    (hparent : ∀ i ∈ visits, ∀ j ∈ visits, ∀ m, m ∈ next i → m ∈ next j → i = j) :
    visits.Nodup := by
  have hcount (m : NodeIndex) :
      visits.count m = roots.count m + (visits.flatMap next).count m := by
    rw [h.perm.count_eq, List.count_append]
  have hroot (r : NodeIndex) (hr : r ∈ roots) : visits.count r ≤ 1 := by
    have hnone : (visits.flatMap next).count r = 0 := by
      refine List.count_eq_zero.2 fun hmem => ?_
      obtain ⟨i, hi, hri⟩ := List.mem_flatMap.1 hmem
      exact hfresh i hi r hr hri
    have := List.nodup_iff_count.1 hroots r
    have := hcount r
    omega
  -- from a node that is visited once to the nodes that follow it
  have hbelow (i j : NodeIndex) (hi : i ∈ visits) (hj : j ∈ next i)
      (hone : visits.count i ≤ 1) : visits.count j ≤ 1 := by
    have hnot : roots.count j = 0 := List.count_eq_zero.2 fun hr => hfresh i hi j hr hj
    have hle : (visits.flatMap next).count j ≤ 1 :=
      count_flatMap_le_one (fun k hk hjk => hparent k hk i hi j hjk hj) hone
        (List.nodup_iff_count.1 (hnext i hi) j)
    have := hcount j
    omega
  have hreach {i j : NodeIndex} (hij : Reaches next i j) (hi : i ∈ visits)
      (hone : visits.count i ≤ 1) : visits.count j ≤ 1 := by
    induction hij with
    | refl => exact hone
    | step hj _ ih => exact ih (h.mem_of_mem_next hi hj) (hbelow _ _ hi hj hone)
  refine List.nodup_iff_count.2 fun m => ?_
  by_cases hm : m ∈ visits
  · obtain ⟨r, hr, hrm⟩ := h.exists_reaches hm
    exact hreach hrm (h.mem_of_mem_roots hr) (hroot r hr)
  · have := List.count_eq_zero.2 hm
    omega

/-- The walk with a stack makes these visits and goes on with what lies below on the stack. -/
theorem visited?_append (h : Preorder next roots visits) (steps : Nat) (stack : NodeList) :
    visited? next (visits.length + steps) (roots ++ stack) =
      (visited? next steps stack).map (visits ++ ·) := by
  induction h generalizing steps stack with
  | nil => simp
  | @cons i rest below later _ _ ihBelow ihLater =>
    have hlength : (i :: (below ++ later)).length + steps =
        (below.length + (later.length + steps)) + 1 := by
      simp only [List.length_cons, List.length_append]
      omega
    rw [hlength, List.cons_append, visited?, ihBelow, ihLater, Option.map_map, Option.map_map]
    congr 1
    funext tail
    simp

theorem visited?_eq (h : Preorder next roots visits) {steps : Nat}
    (hsteps : visits.length ≤ steps) : visited? next steps roots = some visits := by
  have hwalk := h.visited?_append (steps - visits.length) []
  rw [Nat.add_sub_cancel' hsteps, List.append_nil] at hwalk
  rw [hwalk]
  simp [visited?]

/-- Each step down multiplies the number of visits by less than the base at most. -/
theorem length_le (h : Preorder next roots visits) (hrank : Lowers next rank) {base : Nat}
    (hbase : ∀ i, (next i).length < base) {n : Nat} (hn : ∀ i ∈ roots, rank i ≤ n) :
    visits.length ≤ roots.length * Nat.pow base n := by
  induction h generalizing n with
  | nil => simp
  | @cons i rest below later _ _ ihBelow ihLater =>
    have hlater : later.length ≤ rest.length * Nat.pow base n :=
      ihLater fun j hj => hn j (List.mem_cons_of_mem i hj)
    have hi : rank i ≤ n := hn i List.mem_cons_self
    have hbelow : below.length + 1 ≤ Nat.pow base n := by
      cases n with
      | zero =>
        have hnone : next i = [] := by
          refine List.eq_nil_iff_forall_not_mem.2 fun j hj => ?_
          have := hrank i j hj
          omega
        have hle := @ihBelow 0 (by simp [hnone])
        simp only [hnone, List.length_nil, Nat.zero_mul] at hle
        simp only [Nat.pow]
        omega
      | succ m =>
        have hle : below.length ≤ (next i).length * Nat.pow base m := by
          refine ihBelow fun j hj => ?_
          have := hrank i j hj
          omega
        have hpos : 1 ≤ Nat.pow base m :=
          Nat.pow_pos (Nat.lt_of_le_of_lt (Nat.zero_le _) (hbase i))
        have hmul : ((next i).length + 1) * Nat.pow base m ≤ base * Nat.pow base m :=
          Nat.mul_le_mul_right _ (hbase i)
        have hpow : Nat.pow base (m + 1) = base * Nat.pow base m := Nat.mul_comm _ _
        rw [Nat.add_mul, Nat.one_mul] at hmul
        omega
    simp only [List.length_cons, List.length_append, Nat.add_mul, Nat.one_mul]
    omega

end Preorder

/-- A walk that ends has made the visits in pre-order. -/
theorem preorder_of_visited? {n : Nat} (h : visited? next n roots = some visits) :
    Preorder next roots visits := by
  induction n generalizing roots visits with
  | zero =>
    cases roots with
    | nil =>
      cases h
      exact .nil
    | cons i rest => cases h
  | succ n ih =>
    cases roots with
    | nil =>
      cases h
      exact .nil
    | cons i rest =>
      simp only [visited?, Option.map_eq_some_iff] at h
      obtain ⟨visits, hvisits, rfl⟩ := h
      obtain ⟨below, later, hbelow, hlater, rfl⟩ := (ih hvisits).append_split
      exact .cons hbelow hlater

/-- Where links lower the rank every list of nodes has its visits. -/
theorem Lowers.exists_preorder (hrank : Lowers next rank) (roots : NodeList) :
    ∃ visits, Preorder next roots visits := by
  suffices hall : ∀ n (roots : NodeList), (∀ i ∈ roots, rank i < n) →
      ∃ visits, Preorder next roots visits by
    -- one above the highest rank among the roots bounds them all
    have hbound : ∃ n, ∀ i ∈ roots, rank i < n := by
      induction roots with
      | nil => exact ⟨0, fun i hi => by cases hi⟩
      | cons i rest ih =>
        obtain ⟨n, hn⟩ := ih
        refine ⟨max (rank i + 1) n, fun j hj => ?_⟩
        obtain rfl | hj := List.mem_cons.1 hj
        · omega
        · have := hn j hj
          omega
    obtain ⟨n, hn⟩ := hbound
    exact hall n roots hn
  intro n
  induction n with
  | zero =>
    intro roots hroots
    cases roots with
    | nil => exact ⟨[], .nil⟩
    | cons i rest => exact absurd (hroots i List.mem_cons_self) (Nat.not_lt_zero _)
  | succ n ih =>
    intro roots hroots
    induction roots with
    | nil => exact ⟨[], .nil⟩
    | cons i rest ihRest =>
      have hi : rank i < n + 1 := hroots i List.mem_cons_self
      obtain ⟨below, hbelow⟩ := ih (next i) fun j hj => by
        have := hrank i j hj
        omega
      obtain ⟨later, hlater⟩ := ihRest fun j hj => hroots j (List.mem_cons_of_mem i hj)
      exact ⟨_, .cons hbelow hlater⟩

end DeclTree.Walk
