import Mathlib.Data.List.Basic
import Mathlib.Logic.Function.Basic
import Mathlib.Tactic.SplitIfs

/-!
# A block device that can lose power

A disk maps block addresses to blocks.  A program on the device reads and writes single blocks; the
device has power for a given number of writes, and a program that writes once more stops.  `Writes`
describes a program by the writes it does and by its result; its rules follow the constructs of the
program.  A program cut off by the power leaves a prefix of its writes on the disk (`Writes.disk`).
-/

namespace BlockDevice

variable {σ ε α β : Type}

/-- The block stored at each address. -/
abbrev Disk (σ : Type) := ℕ → σ

/-- The disk after writes, in order. -/
def store (d : Disk σ) (ws : List (ℕ × σ)) : Disk σ :=
  ws.foldl (fun d w => Function.update d w.1 w.2) d

@[simp] theorem store_nil (d : Disk σ) : store d [] = d := rfl

theorem store_append (d : Disk σ) (ws vs : List (ℕ × σ)) :
    store d (ws ++ vs) = store (store d ws) vs :=
  List.foldl_append

/-- A block that is not written keeps its contents. -/
theorem store_of_notMem (d : Disk σ) {ws : List (ℕ × σ)} {a : ℕ} (h : ∀ w ∈ ws, w.1 ≠ a) :
    store d ws a = d a := by
  induction ws generalizing d with
  | nil => rfl
  | cons w ws ih =>
    refine (ih _ fun v hv => h v (List.mem_cons_of_mem w hv)).trans ?_
    exact Function.update_of_ne (h w List.mem_cons_self).symm ..

/-- A block written once holds what was written. -/
theorem store_of_mem (d : Disk σ) {ws : List (ℕ × σ)} {w : ℕ × σ}
    (hnodup : (ws.map Prod.fst).Nodup) (hw : w ∈ ws) : store d ws w.1 = w.2 := by
  induction ws generalizing d with
  | nil => simp at hw
  | cons v ws ih =>
    rw [List.map_cons, List.nodup_cons] at hnodup
    rcases List.mem_cons.mp hw with rfl | hw
    · have hnot : ∀ v ∈ ws, v.1 ≠ w.1 := fun v hv heq =>
        hnodup.1 (List.mem_map.mpr ⟨v, hv, heq⟩)
      exact (store_of_notMem (Function.update d w.1 w.2) hnot).trans (Function.update_self ..)
    · exact ih _ hnodup.2 hw

/-- A disk and the number of writes it has power for. -/
structure Device (σ : Type) where
  disk : Disk σ
  power : ℕ

/-- Why a program stops without a result. -/
inductive Halt (ε : Type)
  | error (reason : ε)
  | panic
  | powerOff

/-- A program on a device. -/
def Dev (σ ε α : Type) := Device σ → Except (Halt ε) α × Device σ

namespace Dev

def pure (a : α) : Dev σ ε α := fun v => (.ok a, v)

def bind (p : Dev σ ε α) (f : α → Dev σ ε β) : Dev σ ε β := fun v =>
  match p v with
  | (.ok a, v) => f a v
  | (.error e, v) => (.error e, v)

instance : Monad (Dev σ ε) where
  pure := Dev.pure
  bind := Dev.bind

def halt (e : Halt ε) : Dev σ ε α := fun v => (.error e, v)

def throw (reason : ε) : Dev σ ε α := halt (.error reason)

def panic : Dev σ ε α := halt .panic

/-- The disk as it is. -/
def getDisk : Dev σ ε (Disk σ) := fun v => (.ok v.disk, v)

def read (a : ℕ) : Dev σ ε σ := fun v => (.ok (v.disk a), v)

def write (a : ℕ) (s : σ) : Dev σ ε Unit := fun v =>
  match v.power with
  | 0 => (.error .powerOff, v)
  | n + 1 => (.ok (), ⟨Function.update v.disk a s, n⟩)

/-- Continue with a result or stop with its error. -/
def ofExcept : Except ε α → Dev σ ε α
  | .ok a => pure a
  | .error e => throw e

end Dev

/-- On the disk `d` the program does the writes `ws` and then has the result `r`; with power for
fewer writes it does as many of them as it can. -/
def Writes (p : Dev σ ε α) (d : Disk σ) (ws : List (ℕ × σ)) (r : Except (Halt ε) α) : Prop :=
  ∀ n, p ⟨d, n⟩ =
    if ws.length ≤ n then (r, ⟨store d ws, n - ws.length⟩)
    else (.error .powerOff, ⟨store d (ws.take n), 0⟩)

namespace Writes

variable {p : Dev σ ε α} {d : Disk σ} {ws vs : List (ℕ × σ)} {r : Except (Halt ε) α}

theorem pure (a : α) : Writes (Pure.pure a : Dev σ ε α) d [] (.ok a) := fun _ => rfl

theorem halt (e : Halt ε) : Writes (Dev.halt e : Dev σ ε α) d [] (.error e) := fun _ => rfl

theorem getDisk : Writes (Dev.getDisk : Dev σ ε (Disk σ)) d [] (.ok d) := fun _ => rfl

theorem read (a : ℕ) : Writes (Dev.read a : Dev σ ε σ) d [] (.ok (d a)) := fun _ => rfl

theorem write (a : ℕ) (s : σ) : Writes (Dev.write a s : Dev σ ε Unit) d [(a, s)] (.ok ()) := by
  intro n
  cases n with
  | zero => rfl
  | succ n => rw [if_pos (by simp)]; rfl

theorem ofExcept (x : Except ε α) :
    Writes (Dev.ofExcept x : Dev σ ε α) d [] (x.mapError .error) := by
  cases x <;> exact fun _ => rfl

/-- Two programs in a row. -/
theorem bind {f : α → Dev σ ε β} {a : α} {q : Except (Halt ε) β}
    (hp : Writes p d ws (.ok a)) (hf : Writes (f a) (store d ws) vs q) :
    Writes (p >>= f) d (ws ++ vs) q := by
  intro n
  change Dev.bind p f ⟨d, n⟩ = _
  unfold Dev.bind
  rw [hp n]
  by_cases hws : ws.length ≤ n
  · rw [if_pos hws]
    dsimp only
    rw [hf, store_append, List.length_append]
    by_cases hvs : vs.length ≤ n - ws.length
    · rw [if_pos hvs, if_pos (by omega), Nat.sub_sub]
    · rw [if_neg hvs, if_neg (by omega), List.take_append, List.take_of_length_le hws,
        store_append]
  · rw [if_neg hws, if_neg (by rw [List.length_append]; omega),
      List.take_append_of_le_length (by omega)]

/-- A program after one that writes nothing. -/
theorem bind_left {f : α → Dev σ ε β} {a : α} {q : Except (Halt ε) β}
    (hp : Writes p d [] (.ok a)) (hf : Writes (f a) d ws q) : Writes (p >>= f) d ws q :=
  hp.bind hf

/-- A program that writes nothing after one that has a result. -/
theorem bind_right {f : α → Dev σ ε β} {a : α} {q : Except (Halt ε) β}
    (hp : Writes p d ws (.ok a)) (hf : Writes (f a) (store d ws) [] q) :
    Writes (p >>= f) d ws q := by
  have h := hp.bind hf
  rwa [List.append_nil] at h

/-- A program after one that stops is not run. -/
theorem bind_error {f : α → Dev σ ε β} {e : Halt ε} (hp : Writes p d ws (.error e)) :
    Writes (p >>= f) d ws (.error e) := by
  intro n
  change Dev.bind p f ⟨d, n⟩ = _
  unfold Dev.bind
  rw [hp n]
  by_cases hws : ws.length ≤ n
  · rw [if_pos hws, if_pos hws]
  · rw [if_neg hws, if_neg hws]

/-- A program that does one write for each item. -/
theorem forM {f : β → Dev σ ε PUnit} {w : β → ℕ × σ} (items : List β)
    (hf : ∀ x d, Writes (f x) d [w x] (.ok ⟨⟩)) :
    Writes (items.forM f) d (items.map w) (.ok ⟨⟩) := by
  induction items generalizing d with
  | nil => exact pure _
  | cons x items ih => exact (hf x d).bind ih

/-- A cut leaves a prefix of the writes on the disk. -/
theorem disk (h : Writes p d ws r) (n : ℕ) : (p ⟨d, n⟩).2.disk = store d (ws.take n) := by
  rw [h n]
  split_ifs with hn
  · rw [List.take_of_length_le hn]
  · rfl

/-- With enough power the program has its result. -/
theorem result (h : Writes p d ws r) {n : ℕ} (hn : ws.length ≤ n) :
    (p ⟨d, n⟩).1 = r ∧ (p ⟨d, n⟩).2.disk = store d ws := by
  rw [h n, if_pos hn]
  exact ⟨rfl, rfl⟩

/-- A result other than a loss of power is the result of the program. -/
theorem eq_of_ok (h : Writes p d ws r) {n : ℕ} {a : α} (ha : (p ⟨d, n⟩).1 = .ok a) :
    r = .ok a ∧ ws.length ≤ n := by
  rw [h n] at ha
  split_ifs at ha with hn
  exact ⟨ha, hn⟩

end Writes

end BlockDevice
