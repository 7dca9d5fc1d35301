import DeclTree.Declaration.Fault
/-!
Computations that may fail: how one computation after another, and one for each entry of a list, come
out. The first failure decides.
-/
namespace DeclTree.Outcome
variable {ε α β : Type}

@[simp] theorem ok_bind (x : α) (f : α → Except ε β) : (Except.ok x >>= f) = f x := rfl

@[simp] theorem error_bind (e : ε) (f : α → Except ε β) : (Except.error e >>= f) = .error e := rfl

@[simp] theorem pure_eq_ok (x : α) : (pure x : Except ε α) = .ok x := rfl

theorem bind_eq_ok {x : Except ε α} {f : α → Except ε β} {y : β}
    (h : (x >>= f) = .ok y) : ∃ a, x = .ok a ∧ f a = .ok y := by
  cases x with
  | error e => cases h
  | ok a => exact ⟨a, rfl, h⟩

theorem bind_assoc {γ : Type} (x : Except ε α) (f : α → Except ε β) (g : β → Except ε γ) :
    ((x >>= f) >>= g) = (x >>= fun a => f a >>= g) := by
  cases x <;> rfl

theorem ok_or_error (x : Except ε α) : (∃ a, x = .ok a) ∨ ∃ e, x = .error e := by
  cases x with
  | error e => exact .inr ⟨e, rfl⟩
  | ok a => exact .inl ⟨a, rfl⟩

theorem exists_eq_ok {x : Except ε α} (h : x.toBool = true) : ∃ a, x = .ok a := by
  cases x with
  | error e => cases h
  | ok a => exact ⟨a, rfl⟩

/-- The failure of a computation that fails. -/
def error? : Except ε α → Option ε
  | .ok _ => none
  | .error e => some e

@[simp] theorem error?_ok (x : α) : error? (Except.ok x : Except ε α) = none := rfl

@[simp] theorem error?_error (e : ε) : error? (Except.error e : Except ε α) = some e := rfl

theorem error?_eq_some_iff {x : Except ε α} {e : ε} : error? x = some e ↔ x = .error e := by
  cases x <;> simp

theorem error?_eq_none_iff {x : Except ε α} : error? x = none ↔ ∃ a, x = .ok a := by
  cases x <;> simp

theorem error?_bind_ok (x : Except ε α) (f : α → β) :
    error? (x >>= fun a => .ok (f a)) = error? x := by
  cases x <;> rfl

theorem bind_ok_ne {x : Except ε α} {e : ε} (h : x ≠ .error e) (f : α → β) :
    (x >>= fun a => .ok (f a)) ≠ .error e := by
  cases x with
  | error e' => simpa using h
  | ok a => nofun

variable {f : α → Except ε β}

theorem mapM_cons (x : α) (xs : List α) :
    (x :: xs).mapM f = (f x >>= fun y => xs.mapM f >>= fun ys => .ok (y :: ys)) := by
  rw [List.mapM_cons]
  rfl

theorem mapM_cons_eq_ok {x : α} {xs : List α} {zs : List β} (h : (x :: xs).mapM f = .ok zs) :
    ∃ y ys, f x = .ok y ∧ xs.mapM f = .ok ys ∧ zs = y :: ys := by
  rw [mapM_cons] at h
  obtain ⟨y, hy, h⟩ := bind_eq_ok h
  obtain ⟨ys, hys, h⟩ := bind_eq_ok h
  cases h
  exact ⟨y, ys, hy, hys, rfl⟩

theorem exists_of_mem_mapM {xs : List α} {zs : List β} {z : β} (h : xs.mapM f = .ok zs)
    (hz : z ∈ zs) : ∃ x ∈ xs, f x = .ok z := by
  induction xs generalizing zs with
  | nil =>
    cases h
    cases hz
  | cons x xs ih =>
    obtain ⟨y, ys, hx, hys, rfl⟩ := mapM_cons_eq_ok h
    obtain rfl | hz := List.mem_cons.1 hz
    · exact ⟨x, List.mem_cons_self, hx⟩
    · obtain ⟨x', hmem, hx'⟩ := ih hys hz
      exact ⟨x', List.mem_cons_of_mem x hmem, hx'⟩

/-- The result of an entry stands between those of the entries before it and after it. -/
theorem mapM_append_cons_eq_ok {xs ys : List α} {x : α} {zs : List β}
    (h : (xs ++ x :: ys).mapM f = .ok zs) : ∃ before z after, f x = .ok z ∧
      zs = before ++ z :: after ∧ ∀ y ∈ before, ∃ x' ∈ xs, f x' = .ok y := by
  rw [List.mapM_append] at h
  obtain ⟨before, hbefore, h⟩ := bind_eq_ok h
  obtain ⟨rest, hrest, h⟩ := bind_eq_ok h
  obtain ⟨z, after, hz, -, rfl⟩ := mapM_cons_eq_ok hrest
  cases h
  exact ⟨before, z, after, hz, rfl, fun y hy => exists_of_mem_mapM hbefore hy⟩

theorem mapM_congr {g : α → Except ε β} {xs : List α} (h : ∀ x ∈ xs, f x = g x) :
    xs.mapM f = xs.mapM g := by
  induction xs with
  | nil => rfl
  | cons x xs ih =>
    have hxs : xs.mapM f = xs.mapM g := ih fun y hy => h y (List.mem_cons_of_mem x hy)
    rw [mapM_cons, mapM_cons, h x List.mem_cons_self, hxs]

/-- What is done to each result may be done to all of them in the end. -/
theorem mapM_map {γ : Type} (φ : β → γ) (xs : List α) :
    (xs.mapM fun x => (f x).map φ) = (xs.mapM f).map (List.map φ) := by
  induction xs with
  | nil => rfl
  | cons x xs ih =>
    rw [mapM_cons, mapM_cons, ih]
    cases f x with
    | error e => rfl
    | ok y => cases xs.mapM f <;> rfl

/-- Where a list does not fail in one way, the entries that do not fail so decide. -/
theorem mapM_eq_of_ne {e : ε} {g : α → Except ε β} {xs : List α} (h : xs.mapM f ≠ .error e)
    (hfg : ∀ x ∈ xs, f x ≠ .error e → g x = f x) : xs.mapM g = xs.mapM f := by
  induction xs with
  | nil => rfl
  | cons x xs ih =>
    rw [mapM_cons] at h ⊢
    cases hx : f x with
    | error e' =>
      rw [mapM_cons, hfg x List.mem_cons_self (by simpa [hx] using h), hx]
      rfl
    | ok y =>
      have hxs : xs.mapM f ≠ .error e := by
        intro hfail
        simp [hx, hfail] at h
      rw [mapM_cons, hfg x List.mem_cons_self (by simp [hx]), hx,
        ih hxs fun z hz => hfg z (List.mem_cons_of_mem x hz)]

/-- A list that does not fail does not fail in another order either. -/
theorem mapM_perm {xs ys : List α} {zs : List β} (hperm : xs.Perm ys) (h : xs.mapM f = .ok zs) :
    ∃ ws, ys.mapM f = .ok ws ∧ zs.Perm ws := by
  induction hperm generalizing zs with
  | nil => exact ⟨zs, h, .refl zs⟩
  | cons x _ ih =>
    obtain ⟨z, zs, hx, hzs, rfl⟩ := mapM_cons_eq_ok h
    obtain ⟨ws, hws, hperm⟩ := ih hzs
    exact ⟨z :: ws, by rw [mapM_cons, hx, hws]; rfl, hperm.cons z⟩
  | swap x y xs =>
    obtain ⟨z, zs, hy, hzs, rfl⟩ := mapM_cons_eq_ok h
    obtain ⟨w, ws, hx, hws, rfl⟩ := mapM_cons_eq_ok hzs
    exact ⟨w :: z :: ws, by rw [mapM_cons, mapM_cons, hx, hy, hws]; rfl, .swap w z ws⟩
  | trans _ _ ih ih' =>
    obtain ⟨ws, hws, hperm⟩ := ih h
    obtain ⟨vs, hvs, hperm'⟩ := ih' hws
    exact ⟨vs, hvs, hperm.trans hperm'⟩

section Follows
variable {γ δ : Type} {r : ε → ε} {φ : α → γ} {ψ : β → δ} {sure : Prop}

/-- A second computation comes out as the first one does. It fails if that one fails, with the
translated failure, and it succeeds if that one succeeds; where `sure` holds, its result is then the
translated one. -/
inductive Follows (r : ε → ε) (φ : α → γ) (sure : Prop) : Except ε α → Except ε γ → Prop
  | ok {a : α} {c : γ} : (sure → c = φ a) → Follows r φ sure (.ok a) (.ok c)
  | error (e : ε) : Follows r φ sure (.error e) (.error (r e))

theorem Follows.refl (a : α) : Follows r φ sure (.ok a) (.ok (φ a)) := .ok fun _ => rfl

theorem Follows.bind {x : Except ε α} {y : Except ε γ} {g : γ → Except ε δ}
    (h : Follows r φ sure x y)
    (hfg : ∀ a c, (sure → c = φ a) → Follows r ψ sure (f a) (g c)) :
    Follows r ψ sure (x >>= f) (y >>= g) := by
  cases h with
  | ok hc => exact hfg _ _ hc
  | error e => exact .error e

/-- Where the results are sure anyway, only the translated result has to be looked at. -/
theorem Follows.then {x : Except ε α} {y : Except ε γ} {g : γ → Except ε δ}
    (h : Follows r φ True x y) (hfg : ∀ a, x = .ok a → Follows r ψ sure (f a) (g (φ a))) :
    Follows r ψ sure (x >>= f) (y >>= g) := by
  cases h with
  | ok hc =>
    cases hc trivial
    exact hfg _ rfl
  | error e => exact .error e

theorem Follows.mapM {p : α → γ} {g : γ → Except ε δ} {xs : List α}
    (h : ∀ x ∈ xs, Follows r ψ sure (f x) (g (p x))) :
    Follows r (List.map ψ) sure (xs.mapM f) ((xs.map p).mapM g) := by
  induction xs with
  | nil => exact .ok fun _ => rfl
  | cons x xs ih =>
    have hxs := ih fun y hy => h y (List.mem_cons_of_mem x hy)
    rw [List.map_cons, mapM_cons, mapM_cons]
    refine (h x List.mem_cons_self).bind fun y z hz => hxs.bind fun ys zs hzs => .ok fun hsure => ?_
    rw [hz hsure, hzs hsure, List.map_cons]

theorem Follows.exists_ok {a : α} {y : Except ε γ} (h : Follows r φ sure (.ok a) y) :
    ∃ c, y = .ok c ∧ (sure → c = φ a) := by
  cases h with
  | ok hc => exact ⟨_, rfl, hc⟩

theorem Follows.eq_error {e : ε} {y : Except ε γ} (h : Follows r φ sure (.error e) y) :
    y = .error (r e) := by
  cases h with
  | error => rfl

theorem Follows.eq_error_iff {x : Except ε α} {y : Except ε γ} {e : ε} (h : Follows r φ sure x y)
    (hr : ∀ e', r e' = e ↔ e' = e) : y = .error e ↔ x = .error e := by
  cases h with
  | ok hc => exact ⟨nofun, nofun⟩
  | error e' => simp [hr]

theorem Follows.eq {x : Except ε α} {y : Except ε γ} (h : Follows r φ sure x y)
    (hsure : ∀ a, x = .ok a → sure) : y = (x.map φ).mapError r := by
  cases h with
  | ok hc =>
    rw [hc (hsure _ rfl)]
    rfl
  | error e => rfl

end Follows

section Alike
variable {γ δ : Type} {R : α → γ → Prop} {S : β → δ → Prop} {x : Except ε α} {y : Except ε γ}

/-- Two computations fail with the same failure, or they succeed with results that `R` relates. -/
inductive Alike (R : α → γ → Prop) : Except ε α → Except ε γ → Prop
  | ok {a : α} {c : γ} : R a c → Alike R (.ok a) (.ok c)
  | error (e : ε) : Alike R (.error e) (.error e)

theorem Alike.refl (x : Except ε α) : Alike Eq x x := by
  cases x with
  | ok a => exact .ok rfl
  | error e => exact .error e

theorem Alike.of_map (φ : α → γ) (x : Except ε α) : Alike (fun a c => c = φ a) x (x.map φ) := by
  cases x with
  | ok a => exact .ok rfl
  | error e => exact .error e

theorem Alike.bind {g : γ → Except ε δ} (h : Alike R x y)
    (hfg : ∀ a c, R a c → Alike S (f a) (g c)) : Alike S (x >>= f) (y >>= g) := by
  cases h with
  | ok hac => exact hfg _ _ hac
  | error e => exact .error e

theorem Alike.exists_results (h : Alike R x y) : (∃ e, x = .error e ∧ y = .error e) ∨
    ∃ a c, x = .ok a ∧ y = .ok c ∧ R a c := by
  cases h with
  | ok hac => exact .inr ⟨_, _, rfl, rfl, hac⟩
  | error e => exact .inl ⟨e, rfl, rfl⟩

end Alike

/-- The first entry that fails decides on the failure of a whole list. -/
theorem error?_mapM (xs : List α) : error? (xs.mapM f) = xs.findSome? fun x => error? (f x) := by
  induction xs with
  | nil => rfl
  | cons x xs ih =>
    rw [mapM_cons, List.findSome?_cons]
    cases hx : f x with
    | error e => rfl
    | ok y =>
      rw [ok_bind, error?_bind_ok, ih]
      rfl

end DeclTree.Outcome
