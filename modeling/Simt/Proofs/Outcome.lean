-- Outcomes taken apart. A chain of outcomes ends well only when each link of it does, so a
-- successful run gives its intermediate values back. A fold keeps what each of its steps
-- keeps, where the property may depend on the items that are left.
import Mathlib
import Simt.Word

namespace Simt.Outcome

variable {α β γ : Type}

@[simp] theorem ok_bind (a : α) (f : α → Outcome β) : ((.ok a : Outcome α) >>= f) = f a := rfl

@[simp] theorem error_bind (e : Fault) (f : α → Outcome β) :
    ((.error e : Outcome α) >>= f) = .error e := rfl

@[simp] theorem pure_eq_ok (a : α) : (pure a : Outcome α) = .ok a := rfl

theorem bind_eq_ok {x : Outcome α} {f : α → Outcome β} {b : β} :
    (x >>= f) = .ok b ↔ ∃ a, x = .ok a ∧ f a = .ok b := by
  cases x <;> simp

/-- Two chains are the same that go on in the same way from where the first link leads. -/
theorem bind_congr_ok {x : Outcome α} {f g : α → Outcome β} (h : ∀ a, x = .ok a → f a = g a) :
    (x >>= f) = (x >>= g) := by
  cases x with
  | error e => rfl
  | ok a => exact h a rfl

theorem map_eq_ok {x : Outcome α} {f : α → β} {b : β} :
    x.map f = .ok b ↔ ∃ a, x = .ok a ∧ f a = b := by
  cases x <;> simp [Except.map]

theorem exists_ok {x : Outcome α} (h : x.isOk = true) : ∃ a, x = .ok a := by
  cases x with
  | error e => cases h
  | ok a => exact ⟨a, rfl⟩

/-! ## Views -/

section Views

variable {δ : Type} {v : α → γ} {w : β → δ} {x : Outcome α} {f : α → Outcome β}

/-- A chain that agrees link by link, up to a change of view, agrees as a whole. -/
theorem bind_map {y : Outcome γ} {g : γ → Outcome δ} (hx : y = x.map v)
    (hf : ∀ a, g (v a) = (f a).map w) : (y >>= g) = (x >>= f).map w := by
  subst hx
  cases x with
  | error e => rfl
  | ok a => exact hf a

theorem bind_map_right {g : α → Outcome δ} (hf : ∀ a, g a = (f a).map w) :
    (x >>= g) = (x >>= f).map w := by
  cases x with
  | error e => rfl
  | ok a => exact hf a

end Views

/-! ## Folds -/

/-- What one step keeps, the fold keeps. The property may look at the items that are left. -/
theorem foldlM_keeps {f : β → α → Outcome β} {P : List α → β → Prop}
    (step : ∀ a rest b c, P (a :: rest) b → f b a = .ok c → P rest c)
    {items : List α} {b c : β} (hb : P items b) (h : items.foldlM f b = .ok c) : P [] c := by
  induction items generalizing b with
  | nil =>
    cases h
    exact hb
  | cons a rest ih =>
    rw [List.foldlM_cons, bind_eq_ok] at h
    obtain ⟨d, hd, h⟩ := h
    exact ih (step a rest b d hb hd) h

/-- Where each step goes through, the fold goes through. -/
theorem foldlM_ok {f : β → α → Outcome β} {P : List α → β → Prop}
    (step : ∀ a rest b, P (a :: rest) b → ∃ c, f b a = .ok c ∧ P rest c)
    {items : List α} {b : β} (hb : P items b) : ∃ c, items.foldlM f b = .ok c ∧ P [] c := by
  induction items generalizing b with
  | nil => exact ⟨b, rfl, hb⟩
  | cons a rest ih =>
    obtain ⟨d, hd, hrest⟩ := step a rest b hb
    obtain ⟨c, hc, hP⟩ := ih hrest
    exact ⟨c, by rw [List.foldlM_cons, hd]; exact hc, hP⟩

/-- Where each step writes down one thing, the fold writes down one thing for each item. -/
theorem foldlM_emits {f : β → α → Outcome β} {e : β → List γ} {P : List α → β → Prop}
    {R : γ → α → Prop}
    (step : ∀ a rest b c, P (a :: rest) b → f b a = .ok c →
      P rest c ∧ ∃ line, e c = e b ++ [line] ∧ R line a)
    {items : List α} {b c : β} (hb : P items b) (h : items.foldlM f b = .ok c) :
    ∃ lines, e c = e b ++ lines ∧ List.Forall₂ R lines items := by
  induction items generalizing b with
  | nil =>
    cases h
    exact ⟨[], by simp, .nil⟩
  | cons a rest ih =>
    rw [List.foldlM_cons, bind_eq_ok] at h
    obtain ⟨d, hd, h⟩ := h
    obtain ⟨hrest, line, hline, hr⟩ := step a rest b d hb hd
    obtain ⟨lines, hlines, hall⟩ := ih hrest h
    exact ⟨line :: lines, by rw [hlines, hline]; simp, .cons hr hall⟩

/-- Two folds that take the same steps are the same. -/
theorem foldlM_congr {f g : β → α → Outcome β} {items : List α}
    (step : ∀ b, ∀ a ∈ items, g b a = f b a) (b : β) : items.foldlM g b = items.foldlM f b := by
  induction items generalizing b with
  | nil => rfl
  | cons a rest ih =>
    rw [List.foldlM_cons, List.foldlM_cons, step b a List.mem_cons_self]
    exact congrArg _ (funext fun c => ih (fun b a ha => step b a (List.mem_cons_of_mem _ ha)) c)

/-- Two folds that take the same steps from where the fold gets to are the same. -/
theorem foldlM_congr_reached {f g : β → α → Outcome β} {items : List α} {b : β}
    (step : ∀ before a after c, items = before ++ a :: after → before.foldlM f b = .ok c →
      g c a = f c a) : items.foldlM g b = items.foldlM f b := by
  induction items generalizing b with
  | nil => rfl
  | cons a rest ih =>
    rw [List.foldlM_cons, List.foldlM_cons, step [] a rest b rfl rfl]
    refine bind_congr_ok fun d ha => ?_
    refine ih fun before a' after c hrest hc => step (a :: before) a' after c ?_ ?_
    · rw [hrest, List.cons_append]
    · rw [List.foldlM_cons, ha, ok_bind, hc]

theorem foldlM_flatMap (f : β → γ → Outcome β) (items : List α) (g : α → List γ) (b : β) :
    (items.flatMap g).foldlM f b = items.foldlM (fun b a => (g a).foldlM f b) b := by
  induction items generalizing b with
  | nil => rfl
  | cons a rest ih =>
    rw [List.flatMap_cons, List.foldlM_append, List.foldlM_cons]
    exact congrArg _ (funext ih)

/-- Two folds that agree step by step, up to a change of view, agree as a whole. -/
theorem foldlM_map {f : β → α → Outcome β} {g : γ → α → Outcome γ} {view : β → γ}
    (step : ∀ b a, g (view b) a = (f b a).map view) (items : List α) (b : β) :
    items.foldlM g (view b) = (items.foldlM f b).map view := by
  induction items generalizing b with
  | nil => rfl
  | cons a rest ih =>
    rw [List.foldlM_cons, List.foldlM_cons, step]
    cases f b a with
    | error e => rfl
    | ok c => exact ih c

/-! ## Two runs -/

section Follows

variable {δ ε : Type} {R : α → β → Prop} {S : γ → δ → Prop} {x : Outcome α} {y : Outcome β}

/-- Where the second run goes through, the first one does too, and their results are related. -/
def Follows (R : α → β → Prop) (x : Outcome α) (y : Outcome β) : Prop :=
  ∀ b, y = .ok b → ∃ a, x = .ok a ∧ R a b

theorem follows_ok {a : α} {b : β} (h : R a b) : Follows R (.ok a) (.ok b) := by
  rintro _ ⟨⟩
  exact ⟨a, rfl, h⟩

theorem Follows.bind {f : α → Outcome γ} {g : β → Outcome δ} (h : Follows R x y)
    (hfg : ∀ a b, R a b → Follows S (f a) (g b)) : Follows S (x >>= f) (y >>= g) := by
  intro d hd
  obtain ⟨b, hb, hd⟩ := bind_eq_ok.mp hd
  obtain ⟨a, ha, hab⟩ := h b hb
  obtain ⟨c, hc, hcd⟩ := hfg a b hab d hd
  exact ⟨c, by rw [ha, ok_bind, hc], hcd⟩

/-- Two runs that begin in the same way. -/
theorem follows_bind {f : α → Outcome γ} {g : α → Outcome δ} (h : ∀ a, Follows S (f a) (g a)) :
    Follows S (x >>= f) (x >>= g) := by
  refine Follows.bind (R := Eq) (fun a ha => ⟨a, ha, rfl⟩) ?_
  rintro a _ rfl
  exact h a

theorem follows_foldlM {f : α → ε → Outcome α} {g : β → ε → Outcome β}
    (step : ∀ a b item, R a b → Follows R (f a item) (g b item)) (items : List ε) {a : α} {b : β}
    (h : R a b) : Follows R (items.foldlM f a) (items.foldlM g b) := by
  induction items generalizing a b with
  | nil => exact follows_ok h
  | cons item rest ih =>
    rw [List.foldlM_cons, List.foldlM_cons]
    exact (step a b item h).bind fun c d hcd => ih hcd

end Follows

section Agrees

variable {δ ε : Type} {R : α → β → Prop} {S : γ → δ → Prop} {x : Outcome α} {y : Outcome β}

/-- Where both runs go through, their results are related. -/
def Agrees (R : α → β → Prop) (x : Outcome α) (y : Outcome β) : Prop :=
  ∀ a b, x = .ok a → y = .ok b → R a b

theorem agrees_ok {a : α} {b : β} (h : R a b) : Agrees R (.ok a) (.ok b) := by
  rintro _ _ ⟨⟩ ⟨⟩
  exact h

theorem agrees_eq (x : Outcome α) : Agrees Eq x x := by
  intro a b ha hb
  rwa [ha, Except.ok.injEq] at hb

theorem Agrees.bind {f : α → Outcome γ} {g : β → Outcome δ} (h : Agrees R x y)
    (hfg : ∀ a b, R a b → Agrees S (f a) (g b)) : Agrees S (x >>= f) (y >>= g) := by
  intro c d hc hd
  obtain ⟨a, ha, hc⟩ := bind_eq_ok.mp hc
  obtain ⟨b, hb, hd⟩ := bind_eq_ok.mp hd
  exact hfg a b (h a b ha hb) c d hc hd

theorem agrees_foldlM {f : α → ε → Outcome α} {g : β → ε → Outcome β}
    (step : ∀ a b item, R a b → Agrees R (f a item) (g b item)) (items : List ε) {a : α} {b : β}
    (h : R a b) : Agrees R (items.foldlM f a) (items.foldlM g b) := by
  induction items generalizing a b with
  | nil => exact agrees_ok h
  | cons item rest ih =>
    rw [List.foldlM_cons, List.foldlM_cons]
    exact (step a b item h).bind fun c d hcd => ih hcd

end Agrees

section Alike

variable {δ : Type} {R : α → β → Prop} {S : γ → δ → Prop} {x : Outcome α} {y : Outcome β}

/-- Two runs that end with the same fault, or go through with results that are related. -/
inductive Alike (R : α → β → Prop) : Outcome α → Outcome β → Prop
  | fault (e : Fault) : Alike R (.error e) (.error e)
  | ok {a : α} {b : β} (h : R a b) : Alike R (.ok a) (.ok b)

theorem Alike.bind {f : α → Outcome γ} {g : β → Outcome δ} (h : Alike R x y)
    (hfg : ∀ a b, R a b → Alike S (f a) (g b)) : Alike S (x >>= f) (y >>= g) := by
  cases h with
  | fault e => exact .fault e
  | ok h => exact hfg _ _ h

theorem Alike.mono {T : α → β → Prop} (h : Alike R x y) (hRT : ∀ a b, R a b → T a b) :
    Alike T x y := by
  cases h with
  | fault e => exact .fault e
  | ok h => exact .ok (hRT _ _ h)

theorem alike_refl {T : α → α → Prop} (hT : ∀ a, T a a) (x : Outcome α) : Alike T x x := by
  cases x with
  | error e => exact .fault e
  | ok a => exact .ok (hT a)

end Alike

end Simt.Outcome

/-! ## Checked arithmetic with room -/

namespace Simt.Word

theorem add32_ok {a b : UInt32} (h : a.toNat + b.toNat < UInt32.size) : ∃ c, add32 a b = .ok c :=
  ⟨a + b, if_pos h⟩

theorem mul32_ok {a b : UInt32} (h : a.toNat * b.toNat < UInt32.size) : ∃ c, mul32 a b = .ok c :=
  ⟨a * b, if_pos h⟩

theorem add64_ok {a b : UInt64} (h : a.toNat + b.toNat < UInt64.size) : ∃ c, add64 a b = .ok c :=
  ⟨a + b, if_pos h⟩

theorem mul64_ok {a b : UInt64} (h : a.toNat * b.toNat < UInt64.size) : ∃ c, mul64 a b = .ok c :=
  ⟨a * b, if_pos h⟩

theorem sum32_eq_ok {words : List UInt32} {total : UInt32} (h : sum32 words = .ok total) :
    total.toNat = (words.map UInt32.toNat).sum := by
  refine Outcome.foldlM_keeps
    (P := fun rest (b : UInt32) =>
      b.toNat + (rest.map UInt32.toNat).sum = (words.map UInt32.toNat).sum)
    ?_ (by simp) h
  intro a rest b c hb hc
  rw [List.map_cons, List.sum_cons] at hb
  rw [add32_eq_ok.mp hc]
  omega

theorem sum32_ok {words : List UInt32} (h : (words.map UInt32.toNat).sum < UInt32.size) :
    ∃ total, sum32 words = .ok total := by
  refine (Outcome.foldlM_ok
    (P := fun rest (b : UInt32) => b.toNat + (rest.map UInt32.toNat).sum < UInt32.size)
    ?_ (by simpa using h)).imp fun _ h => h.1
  intro a rest b hb
  rw [List.map_cons, List.sum_cons] at hb
  obtain ⟨c, hc⟩ := add32_ok (a := b) (b := a) (by omega)
  refine ⟨c, hc, ?_⟩
  rw [add32_eq_ok.mp hc]
  omega

end Simt.Word
