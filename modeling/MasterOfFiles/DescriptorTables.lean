import Mathlib.Data.List.Basic
import Mathlib.Logic.Function.Basic

/-!
A table of descriptors, with the calls that have been made on them. A number that is
closed denotes nothing until it is handed out again. Every call is written down with the
owner it is meant for and the one its number denotes when it is made, so that a call on
the descriptor of somebody else can be seen afterwards.
-/
namespace MasterOfFiles.DescriptorTables

inductive Operacion
  | send
  | recv
  | shutdown
  | close
  deriving DecidableEq

structure Llamada (δ κ : Type*) where
  operacion : Operacion
  fd : δ
  destino : κ
  denota : Option κ

structure Tabla (δ κ : Type*) where
  abiertos : δ → Option κ
  llamadas : List (Llamada δ κ)

variable {δ κ : Type*}

def vacia : Tabla δ κ := ⟨fun _ => none, []⟩

variable [DecidableEq δ] [DecidableEq κ] {t : Tabla δ κ} {op : Operacion} {fd fd' : δ} {c c' : κ}

def aceptar (t : Tabla δ κ) (fd : δ) (c : κ) : Tabla δ κ :=
  { t with abiertos := Function.update t.abiertos fd (some c) }

def llamar (t : Tabla δ κ) (op : Operacion) (fd : δ) (c : κ) : Tabla δ κ where
  abiertos := if op = .close then Function.update t.abiertos fd none else t.abiertos
  llamadas := t.llamadas ++ [⟨op, fd, c, t.abiertos fd⟩]

/-- How often `close` has been called for `c`. -/
def cierres (t : Tabla δ κ) (c : κ) : ℕ :=
  t.llamadas.countP fun l => l.operacion = .close ∧ l.destino = c

/-- No call has met the descriptor of somebody else. -/
def SinAjenas (t : Tabla δ κ) : Prop :=
  ∀ l ∈ t.llamadas, l.denota = none ∨ l.denota = some l.destino

instance (t : Tabla δ κ) : Decidable (SinAjenas t) :=
  inferInstanceAs (Decidable (∀ l ∈ t.llamadas, _))

/-- `c` holds `fd` and has never been closed. -/
structure Abierta (t : Tabla δ κ) (fd : δ) (c : κ) : Prop where
  denota : t.abiertos fd = some c
  sinCierres : cierres t c = 0

theorem cierres_llamar :
    cierres (llamar t op fd c) c' = cierres t c' + if op = .close ∧ c = c' then 1 else 0 := by
  simp [cierres, llamar, List.countP_append, List.countP_cons]

theorem cierres_llamar_of_ne (h : op ≠ .close ∨ c ≠ c') :
    cierres (llamar t op fd c) c' = cierres t c' := by
  rw [cierres_llamar, if_neg (not_and_or.mpr h), Nat.add_zero]

/-- A call for `c` on a number that `c` holds meets nobody else. -/
theorem sinAjenas_llamar (h : SinAjenas t) (hc : Abierta t fd c) :
    SinAjenas (llamar t op fd c) := by
  intro l hl
  rcases List.mem_append.mp hl with hl | hl
  · exact h l hl
  · obtain rfl := List.mem_singleton.mp hl
    exact Or.inr hc.denota

theorem abierta_aceptar (h : cierres t c = 0) : Abierta (aceptar t fd c) fd c :=
  ⟨Function.update_self .., h⟩

/-- Only a number that denotes nothing is handed out, so nobody loses theirs. -/
theorem Abierta.aceptar (h : Abierta t fd c) (hlibre : t.abiertos fd' = none) :
    Abierta (aceptar t fd' c') fd c := by
  have hne : fd ≠ fd' := by
    rintro rfl
    rw [h.denota] at hlibre
    cases hlibre
  exact ⟨(Function.update_of_ne hne ..).trans h.denota, h.sinCierres⟩

theorem Abierta.llamar (h : Abierta t fd c) (hop : op ≠ .close) :
    Abierta (llamar t op fd' c') fd c := by
  refine ⟨?_, (cierres_llamar_of_ne (Or.inl hop)).trans h.sinCierres⟩
  rw [← h.denota]
  exact congrFun (if_neg hop) fd

/-- Two owners hold two numbers, so one may close its own. -/
theorem Abierta.cerrar (h : Abierta t fd c) (hc' : Abierta t fd' c') (hne : c' ≠ c) :
    Abierta (DescriptorTables.llamar t .close fd' c') fd c := by
  have hfd : fd ≠ fd' := by
    rintro rfl
    exact hne (Option.some.inj (hc'.denota.symm.trans h.denota))
  refine ⟨?_, (cierres_llamar_of_ne (Or.inr hne)).trans h.sinCierres⟩
  rw [← h.denota]
  exact Function.update_of_ne hfd ..

theorem cierres_cerrar (h : Abierta t fd c) : cierres (llamar t .close fd c) c = 1 := by
  rw [cierres_llamar, if_pos ⟨rfl, rfl⟩, h.sinCierres]

end MasterOfFiles.DescriptorTables
