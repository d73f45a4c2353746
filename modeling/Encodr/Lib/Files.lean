import Mathlib.Logic.Function.Basic

/-!
# File operations that can fail

`Files P C` is a file system: the contents at each path. `FsM S P C ε α` is a program over it that
returns an `α` or raises an `ε`. Each operation that can fail names its call site (`S`), and the
faults of a run (`Faults S C`) say which call sites fail and how. A call site runs at most once in
a run, so the faults of a run are every pattern of failures, rollback steps included. A failed
rename or unlink changes nothing; a failed copy can leave any contents at its destination.

`Triple F P m Q E`: with the faults `F`, from files that satisfy `P`, the program `m` returns a
value that satisfies `Q` or raises an error that satisfies `E`, each with the files after it.

* `Triple.bind`, `Triple.attempt`, `Triple.throw`: the rules of the control flow. `attempt` is
  `try`: the error becomes a value, and `Triple.attempt` moves its postcondition with it.
* `Triple.rename`, `Triple.copyfile`, `Triple.unlink`, `Triple.has`: one operation each.
-/

namespace Lib

/-! ## Files -/

/-- The contents at each path, `none` where there is no file. -/
abbrev Files (P C : Type) := P → Option C

namespace Files

variable {P C : Type}

/-- There is a file at `p`. -/
def has (fs : Files P C) (p : P) : Bool :=
  (fs p).isSome

theorem has_eq_true {fs : Files P C} {p : P} : fs.has p = true ↔ ∃ c, fs p = some c :=
  Option.isSome_iff_exists

theorem has_eq_false {fs : Files P C} {p : P} : fs.has p = false ↔ fs p = none := by
  simp [has]

variable [DecidableEq P]

/-- The files after the contents `c` of `p` moved to `q`. -/
def move (fs : Files P C) (p q : P) (c : C) : Files P C :=
  Function.update (Function.update fs p none) q (some c)

@[simp] theorem move_dst (fs : Files P C) (p q : P) (c : C) : fs.move p q c q = some c := by
  simp [move]

theorem move_src {fs : Files P C} {p q : P} (h : p ≠ q) (c : C) : fs.move p q c p = none := by
  simp [move, h]

theorem move_of_ne {fs : Files P C} {p q r : P} (hp : r ≠ p) (hq : r ≠ q) (c : C) :
    fs.move p q c r = fs r := by
  simp [move, hp, hq]

/-- Moving a file to a free path and back leaves the files as they were. -/
theorem move_move_back {fs : Files P C} {p q : P} {c : C} (hp : fs p = some c) (hq : fs q = none) :
    (fs.move p q c).move q p c = fs := by
  funext r
  by_cases hrp : r = p
  · simp [hrp, hp]
  by_cases hrq : r = q
  · subst hrq
    rw [move_src hrp, hq]
  · rw [move_of_ne hrq hrp, move_of_ne hrp hrq]

end Files

/-! ## Faults and programs -/

/-- An `OSError`: its `errno`, its `strerror`, the name of its class and its `str`. -/
structure OSError where
  errno : Option Nat
  strerror : Option String
  typeName : String
  text : String
deriving DecidableEq, Repr

/-- A failing operation: the error it raises, and what a failing copy leaves at its destination
(`none` leaves the destination as it was). -/
structure Fault (C : Type) where
  error : OSError
  leaves : Option C := none

/-- The faults of a run: the call sites that fail. -/
abbrev Faults (S C : Type) := S → Option (Fault C)

/-- A program over files: it returns an `α` or raises an `ε`, and changes the files. -/
def FsM (S P C ε α : Type) := Faults S C → Files P C → Except ε α × Files P C

namespace FsM

variable {S P C ε ε' α β : Type}

/-- Raise `e`. -/
def throw (e : ε) : FsM S P C ε α := fun _ fs => (.error e, fs)

/-- Run `m`, then `f` on its value. -/
def bind (m : FsM S P C ε α) (f : α → FsM S P C ε β) : FsM S P C ε β := fun F fs =>
  match m F fs with
  | (.ok a, fs') => f a F fs'
  | (.error e, fs') => (.error e, fs')

instance : Monad (FsM S P C ε) where
  pure a := fun _ fs => (.ok a, fs)
  bind := bind

/-- `try m`: the error of `m` as a value. -/
def attempt (m : FsM S P C ε α) : FsM S P C ε' (Except ε α) := fun F fs =>
  ((.ok (m F fs).1), (m F fs).2)

/-- Raise `e` where `c` holds. -/
def raiseIf (c : Prop) [Decidable c] (e : ε) : FsM S P C ε Unit :=
  if c then throw e else pure ()

/-- `p.exists()`. -/
def has (p : P) : FsM S P C ε Bool := fun _ fs => (.ok (fs.has p), fs)

/-- `p.exists()` of a path that may be absent. -/
def has? : Option P → FsM S P C ε (Option Bool)
  | none => pure none
  | some p => fun _ fs => (.ok (some (fs.has p)), fs)

variable [DecidableEq P]

/-- `p.rename(q)`, which replaces a file at `q`. `missing` is the error where `p` does not
exist. -/
def rename (missing : OSError) (site : S) (p q : P) : FsM S P C OSError Unit := fun F fs =>
  match F site, fs p with
  | some fault, _ => (.error fault.error, fs)
  | none, none => (.error missing, fs)
  | none, some c => (.ok (), fs.move p q c)

/-- `shutil.copyfile(p, q)`. A failing copy can leave partial contents at `q`. -/
def copyfile (missing : OSError) (site : S) (p q : P) : FsM S P C OSError Unit := fun F fs =>
  match F site, fs p with
  | some ⟨e, none⟩, _ => (.error e, fs)
  | some ⟨e, some c⟩, _ => (.error e, Function.update fs q (some c))
  | none, none => (.error missing, fs)
  | none, some c => (.ok (), Function.update fs q (some c))

/-- `p.unlink()`. -/
def unlink (missing : OSError) (site : S) (p : P) : FsM S P C OSError Unit := fun F fs =>
  match F site, fs p with
  | some fault, _ => (.error fault.error, fs)
  | none, none => (.error missing, fs)
  | none, some _ => (.ok (), Function.update fs p none)

end FsM

/-! ## Triples -/

variable {S P C ε ε' α β : Type}

/-- From files with `A`, with the faults `F`, `m` returns a value with `Q` or raises an error
with `E`. -/
def Triple (F : Faults S C) (A : Files P C → Prop) (m : FsM S P C ε α)
    (Q : α → Files P C → Prop) (E : ε → Files P C → Prop) : Prop :=
  ∀ fs, A fs → match m F fs with
    | (.ok a, fs') => Q a fs'
    | (.error e, fs') => E e fs'

namespace Triple

variable {F : Faults S C} {A A' : Files P C → Prop} {Q Q' : α → Files P C → Prop}
  {E E' : ε → Files P C → Prop}

/-- The outcome of a run satisfies the postconditions. -/
theorem run {m : FsM S P C ε α} {R : Except ε α → Files P C → Prop}
    (h : Triple F A m (fun a => R (.ok a)) (fun e => R (.error e))) {fs : Files P C} (hA : A fs) :
    R (m F fs).1 (m F fs).2 := by
  have := h fs hA
  cases hm : m F fs with
  | mk r fs' =>
    rw [hm] at this
    cases r with
    | ok a => exact this
    | error e => exact this

theorem conseq {m : FsM S P C ε α} (h : Triple F A' m Q' E') (hA : ∀ fs, A fs → A' fs)
    (hQ : ∀ a fs, Q' a fs → Q a fs) (hE : ∀ e fs, E' e fs → E e fs) : Triple F A m Q E := by
  intro fs hfs
  have := h fs (hA fs hfs)
  cases hm : m F fs with
  | mk r fs' =>
    rw [hm] at this
    cases r with
    | ok a => exact hQ a fs' this
    | error e => exact hE e fs' this

/-- A fact of the precondition that is not about the files. -/
theorem lift {φ : Prop} {m : FsM S P C ε α} (h : φ → Triple F A m Q E) :
    Triple F (fun fs => φ ∧ A fs) m Q E :=
  fun fs hfs => h hfs.1 fs hfs.2

theorem pure {a : α} (h : ∀ fs, A fs → Q a fs) :
    Triple F A (Pure.pure a : FsM S P C ε α) Q E :=
  fun fs hfs => h fs hfs

/-- Every program ends. -/
theorem trivial (m : FsM S P C ε α) : Triple F A m (fun _ _ => True) fun _ _ => True := by
  intro fs _
  cases hm : m F fs with
  | mk r fs' => cases r <;> exact True.intro

theorem throw {e : ε} (h : ∀ fs, A fs → E e fs) :
    Triple F A (FsM.throw e : FsM S P C ε α) Q E :=
  fun fs hfs => h fs hfs

theorem bind {m : FsM S P C ε α} {f : α → FsM S P C ε β} {R : β → Files P C → Prop}
    (hm : Triple F A m Q E) (hf : ∀ a, Triple F (Q a) (f a) R E) :
    Triple F A (m >>= f) R E := by
  intro fs hfs
  have h := hm fs hfs
  show match FsM.bind m f F fs with
    | (.ok b, fs') => R b fs'
    | (.error e, fs') => E e fs'
  unfold FsM.bind
  cases hr : m F fs with
  | mk r fs' =>
    rw [hr] at h
    cases r with
    | ok a => exact hf a fs' h
    | error e => exact h

/-- A step whose outcome does not matter. -/
theorem andThen {m : FsM S P C ε α} {f : α → FsM S P C ε β} {R : β → Files P C → Prop}
    (h : ∀ a, Triple F (fun _ => True) (f a) R fun _ _ => True) :
    Triple F A (m >>= f) R fun _ _ => True :=
  bind (trivial m) h

theorem attempt {m : FsM S P C ε α} {R : Except ε α → Files P C → Prop}
    {E : ε' → Files P C → Prop}
    (hm : Triple F A m (fun a => R (.ok a)) (fun e => R (.error e))) :
    Triple F A (FsM.attempt m : FsM S P C ε' (Except ε α)) R E :=
  fun _ hfs => hm.run hfs

/-- What follows an attempt starts from what its outcome leaves. -/
theorem attempt_bind {m : FsM S P C ε α} {f : Except ε α → FsM S P C ε' β} {R : β → Files P C → Prop}
    {E' : ε' → Files P C → Prop} (hm : Triple F A m Q E) (hok : ∀ a, Triple F (Q a) (f (.ok a)) R E')
    (herror : ∀ e, Triple F (E e) (f (.error e)) R E') : Triple F A (FsM.attempt m >>= f) R E' := by
  intro fs hfs
  have h := hm fs hfs
  show match f (m F fs).1 F (m F fs).2 with
    | (.ok b, fs') => R b fs'
    | (.error e, fs') => E' e fs'
  cases hr : m F fs with
  | mk r fs' =>
    rw [hr] at h
    cases r with
    | ok a => exact hok a fs' h
    | error e => exact herror e fs' h

theorem ite {c : Prop} [Decidable c] {m n : FsM S P C ε α} (ht : c → Triple F A m Q E)
    (hf : ¬ c → Triple F A n Q E) : Triple F A (if c then m else n) Q E := by
  split
  · exact ht ‹_›
  · exact hf ‹_›

theorem raiseIf {c : Prop} [Decidable c] {e : ε} {R : Unit → Files P C → Prop}
    (ht : ∀ fs, A fs → c → E e fs) (hf : ∀ fs, A fs → ¬ c → R () fs) :
    Triple F A (FsM.raiseIf c e : FsM S P C ε Unit) R E := by
  intro fs hfs
  unfold FsM.raiseIf
  by_cases hc : c
  · simpa [hc, FsM.throw] using ht fs hfs hc
  · simpa [hc, Pure.pure] using hf fs hfs hc

/-- Looking changes nothing. -/
theorem has {p : P} {R : Bool → Files P C → Prop} (h : ∀ fs, A fs → R (fs.has p) fs) :
    Triple F A (FsM.has p : FsM S P C ε Bool) R E :=
  fun fs hfs => h fs hfs

section Operations

variable [DecidableEq P] {R : Unit → Files P C → Prop} {E : OSError → Files P C → Prop}
  {missing : OSError} {site : S} {p q : P}

/-- A rename moves the contents, or fails and changes nothing. -/
theorem rename (hok : ∀ fs c, A fs → F site = none → fs p = some c → R () (fs.move p q c))
    (herr : ∀ fs e, A fs → (∃ fault, F site = some fault ∧ fault.error = e) ∨ fs p = none →
      E e fs) :
    Triple F A (FsM.rename missing site p q) R E := by
  intro fs hfs
  unfold FsM.rename
  cases hF : F site with
  | some fault => exact herr fs _ hfs (.inl ⟨fault, hF, rfl⟩)
  | none =>
    cases hp : fs p with
    | none => exact herr fs _ hfs (.inr hp)
    | some c => exact hok fs c hfs hF hp

/-- A copy writes the contents, or fails and leaves what its fault says. -/
theorem copyfile (hok : ∀ fs c, A fs → F site = none → fs p = some c →
      R () (Function.update fs q (some c)))
    (herr : ∀ fs e, A fs → (∃ fault, F site = some fault ∧ fault.leaves = none ∧ fault.error = e) ∨
      (F site = none ∧ fs p = none ∧ missing = e) → E e fs)
    (hpart : ∀ fs fault c, A fs → F site = some fault → fault.leaves = some c →
      E fault.error (Function.update fs q (some c))) :
    Triple F A (FsM.copyfile missing site p q) R E := by
  intro fs hfs
  unfold FsM.copyfile
  cases hF : F site with
  | some fault =>
    obtain ⟨e, l⟩ := fault
    cases l with
    | none => exact herr fs _ hfs (.inl ⟨_, hF, rfl, rfl⟩)
    | some c => exact hpart fs _ c hfs hF rfl
  | none =>
    cases hp : fs p with
    | none => exact herr fs _ hfs (.inr ⟨hF, hp, rfl⟩)
    | some c => exact hok fs c hfs hF hp

/-- An unlink removes the file, or fails and changes nothing. -/
theorem unlink (hok : ∀ fs, A fs → F site = none → R () (Function.update fs p none))
    (herr : ∀ fs e, A fs → E e fs) :
    Triple F A (FsM.unlink missing site p) R E := by
  intro fs hfs
  unfold FsM.unlink
  cases hF : F site with
  | some fault => exact herr fs _ hfs
  | none =>
    cases hp : fs p with
    | none => exact herr fs _ hfs
    | some c => exact hok fs hfs hF

end Operations

/-! ### Steps from known files

From the files `fs₀` exactly, a step is followed by the rest of the program on its outcome. -/

section Steps

variable {fs₀ : Files P C} {R : β → Files P C → Prop} {E : ε' → Files P C → Prop}

theorem has_bind {p : P} {f : Bool → FsM S P C ε' β}
    (h : Triple F (· = fs₀) (f (fs₀.has p)) R E) :
    Triple F (· = fs₀) (FsM.has p >>= f) R E := by
  refine bind (Q := fun r fs => r = fs₀.has p ∧ fs = fs₀) (has ?_) ?_
  · rintro _ rfl
    exact ⟨rfl, rfl⟩
  · rintro r fs ⟨rfl, rfl⟩
    exact h fs rfl

theorem raiseIf_bind {c : Prop} [Decidable c] {e : ε'} {f : Unit → FsM S P C ε' β}
    (ht : c → E e fs₀) (hf : ¬ c → Triple F (· = fs₀) (f ()) R E) :
    Triple F (· = fs₀) (FsM.raiseIf c e >>= f) R E := by
  refine bind (Q := fun _ fs => ¬ c ∧ fs = fs₀) (raiseIf ?_ fun fs h hc => ⟨hc, h⟩) fun _ => lift hf
  rintro _ rfl hc
  exact ht hc

theorem has?_bind {p : Option P} {f : Option Bool → FsM S P C ε' β}
    (h : ∀ b, Triple F (· = fs₀) (f b) R E) :
    Triple F (· = fs₀) (FsM.has? p >>= f) R E := by
  refine bind (Q := fun _ fs => fs = fs₀) ?_ h
  cases p with
  | none => exact pure fun _ hfs => hfs
  | some p => exact fun _ hfs => hfs

/-- A step that raises nothing and has a known effect on the files. -/
theorem effect_bind {m : FsM S P C ε' α} {f : α → FsM S P C ε' β} {fs₁ : Files P C}
    (hm : ∀ E', Triple F (· = fs₀) m (fun _ fs => fs = fs₁) E')
    (h : ∀ a, Triple F (· = fs₁) (f a) R E) : Triple F (· = fs₀) (m >>= f) R E :=
  bind (hm E) h

variable [DecidableEq P] {missing : OSError} {site : S} {p q : P}

theorem attempt_rename_bind {f : Except OSError Unit → FsM S P C ε' β}
    (hok : ∀ c, F site = none → fs₀ p = some c →
      Triple F (· = fs₀.move p q c) (f (.ok ())) R E)
    (hmissing : F site = none → fs₀ p = none → Triple F (· = fs₀) (f (.error missing)) R E)
    (hfault : ∀ fault, F site = some fault → Triple F (· = fs₀) (f (.error fault.error)) R E) :
    Triple F (· = fs₀) (FsM.attempt (FsM.rename missing site p q) >>= f) R E := by
  rintro fs rfl
  cases hF : F site with
  | some fault => simpa [Bind.bind, FsM.bind, FsM.attempt, FsM.rename, hF] using hfault fault hF fs rfl
  | none =>
    cases hp : fs p with
    | none =>
      simpa [Bind.bind, FsM.bind, FsM.attempt, FsM.rename, hF, hp] using hmissing hF hp fs rfl
    | some c =>
      simpa [Bind.bind, FsM.bind, FsM.attempt, FsM.rename, hF, hp] using hok c hF hp _ rfl

theorem copyfile_bind {f : Unit → FsM S P C OSError β} {E : OSError → Files P C → Prop}
    (hok : ∀ c, F site = none → fs₀ p = some c →
      Triple F (· = Function.update fs₀ q (some c)) (f ()) R E)
    (hmissing : F site = none → fs₀ p = none → E missing fs₀)
    (hfault : ∀ fault, F site = some fault → fault.leaves = none → E fault.error fs₀)
    (hpart : ∀ fault c, F site = some fault → fault.leaves = some c →
      E fault.error (Function.update fs₀ q (some c))) :
    Triple F (· = fs₀) (FsM.copyfile missing site p q >>= f) R E := by
  refine bind (Q := fun _ fs => ∃ c, F site = none ∧ fs₀ p = some c ∧
    fs = Function.update fs₀ q (some c)) (copyfile ?_ ?_ ?_) ?_
  · rintro _ c rfl hF hc
    exact ⟨c, hF, hc, rfl⟩
  · rintro _ e rfl (⟨fault, hF, hl, rfl⟩ | ⟨hF, hp, rfl⟩)
    · exact hfault fault hF hl
    · exact hmissing hF hp
  · rintro _ fault c rfl hF hl
    exact hpart fault c hF hl
  · rintro u _ ⟨c, hF, hc, rfl⟩
    exact hok c hF hc _ rfl

theorem attempt_unlink_bind {f : Except OSError Unit → FsM S P C ε' β}
    (hok : F site = none → Triple F (· = Function.update fs₀ p none) (f (.ok ())) R E)
    (hmissing : F site = none → fs₀ p = none → Triple F (· = fs₀) (f (.error missing)) R E)
    (hfault : ∀ fault, F site = some fault → Triple F (· = fs₀) (f (.error fault.error)) R E) :
    Triple F (· = fs₀) (FsM.attempt (FsM.unlink missing site p) >>= f) R E := by
  rintro fs rfl
  cases hF : F site with
  | some fault => simpa [Bind.bind, FsM.bind, FsM.attempt, FsM.unlink, hF] using hfault fault hF fs rfl
  | none =>
    cases hp : fs p with
    | none =>
      simpa [Bind.bind, FsM.bind, FsM.attempt, FsM.unlink, hF, hp] using hmissing hF hp fs rfl
    | some c =>
      simpa [Bind.bind, FsM.bind, FsM.attempt, FsM.unlink, hF, hp] using hok hF _ rfl

end Steps

end Triple

end Lib
