import MasterOfFiles.ListSums
import MasterOfFiles.ReachableStates
import MasterOfFiles.RunTraces

/-!
TRUNCATE requests served by several Worker threads at once. A step is one section
under a mutex or one link, with the code up to the next one. The state of the
Storage is shared, and a thread's own state is its place in operacion_truncate_file.
A thread alone does what the request does in one piece. Threads together hand a block
out twice when one looks for a free bit before another has marked the one it found.
-/
namespace MasterOfFiles.ConcurrentTruncate

open ByteBuffers BlockNames StorageState StorageFiles StorageOperations PartialRuns RunTraces
open ListSums BlockZero TruncateEffects ReachableStates

section Hilos

structure Pedido where
  file : String
  tag : String
  tamanio : ℤ
  deriving DecidableEq

/-- Where a Worker's thread is. In the growth loop it has the number of the logical block
and how many turns are left after this one; `bf` is the block it has found. -/
inductive Hilo
  | libre
  | buscar (p : Pedido) (nro : ℤ) (faltan : ℕ)
  | ocupar (p : Pedido) (nro : ℤ) (faltan bf : ℕ)
  | enlazar (p : Pedido) (nro : ℤ) (faltan bf : ℕ)
  | agregar (p : Pedido) (nro : ℤ) (faltan : ℕ)
  | desocupar (p : Pedido) (nro : ℤ) (faltan bf : ℕ)
  | quitar (p : Pedido) (faltan : ℕ)
  | desenlazar (p : Pedido) (faltan : ℕ) (bl : BlockLogico)
  | terminar (p : Pedido)
  deriving DecidableEq

/-- One thread for each Worker connected, in order. -/
structure Concurrente where
  storage : Storage
  hilos : List Hilo

inductive Evento
  | conecta
  | pide (k : ℕ) (p : Pedido)
  | avanza (k : ℕ)
  deriving DecidableEq

/-- Why a step is not taken: the thread has nothing to do, or it locks mutex_bitmap twice. -/
inductive Espera
  | ocioso
  | interbloqueo
  deriving DecidableEq

def agrandando (p : Pedido) (nro : ℤ) : ℕ → Hilo
  | 0 => .terminar p
  | n + 1 => .buscar p nro n

def achicando (p : Pedido) : ℕ → Hilo
  | 0 => .terminar p
  | n + 1 => .quitar p n

/-- operacion_truncate_file up to its loops. -/
def empezar (sb : Superbloque) (s : Storage) (p : Pedido) : Hilo :=
  if toUint32 p.tamanio % sb.blockSize ≠ 0 then .libre
  else match buscarTag s p.file p.tag with
  | none => .libre
  | some tag =>
    if tag.metadata.estado = .commited then .libre
    else
      let bloquesActuales := cantidadBloques sb tag.metadata.tamanioFile
      let bloquesNuevos := cantidadBloques sb p.tamanio
      if bloquesActuales < bloquesNuevos then
        agrandando p bloquesActuales (bloquesNuevos - bloquesActuales).toNat
      else achicando p (bloquesActuales - bloquesNuevos).toNat

/-- Drops the link of a logical block that is off the list. -/
def desenlazarBloque (s : Storage) (p : Pedido) (bl : BlockLogico) : Except Espera Storage :=
  match buscarIndexBlockFisico s bl.bloqueFisicoAsociado with
  | none => .ok s
  | some indexBf =>
    let disco := s.disco.unlink (rutaBlockLogico p.file p.tag bl.nombreBlock)
    let s := sumarAsociados { s with disco := disco } indexBf (-1)
    if (s.listaBloquesFisicos[indexBf]?.map BlockFisico.blogicoAsociados) = some 0 ∧
        indexBf ≠ 0 then .error .interbloqueo
    else .ok s

/-- The thread's next step. -/
def avanzar (s : Storage) : Hilo → Except Espera (Storage × Hilo)
  | .libre => .error .ocioso
  | .buscar p nro n => match bitmapEncontrarBloqueLibre s.bitmap with
    | none => .ok (s, .libre)
    | some bf => .ok (s, .ocupar p nro n bf)
  | .ocupar p nro n bf =>
    .ok ({ s with bitmap := bitmapMarcarBloqueOcupado s.bitmap bf }, .enlazar p nro n bf)
  | .enlazar p nro n bf =>
    match s.disco.link (nombreBloqueLibre bf)
      (rutaBlockLogico p.file p.tag (crearNombreBloqueLogico nro)) with
    | .error _ => .ok (s, .desocupar p nro n bf)
    | .ok disco => .ok ({ s with disco := disco }, .agregar p nro n)
  | .agregar p nro n =>
    .ok (sumarAsociados (modificarTag s p.file p.tag
      (agregarBloqueLogico (crearNombreBloqueLogico nro))) 0 1, agrandando p (nro + 1) n)
  | .desocupar p nro n bf =>
    .ok ({ s with bitmap := bitmapMarcarBloqueLibre s.bitmap bf }, agrandando p (nro + 1) n)
  | .quitar p n =>
    match (buscarTag s p.file p.tag).bind fun tag => tag.listaBlockLogicos.getLast? with
    | none => .ok (s, achicando p n)
    | some bl => .ok (modificarTag s p.file p.tag quitarUltimo, .desenlazar p n bl)
  | .desenlazar p n bl => match desenlazarBloque s p bl with
    | .ok s' => .ok (s', achicando p n)
    | .error e => .error e
  | .terminar p => .ok (terminarTruncate s p.file p.tag p.tamanio, .libre)

def pasoConcurrente (sb : Superbloque) (c : Concurrente) : Evento → Except Espera Concurrente
  | .conecta => .ok { c with hilos := c.hilos ++ [.libre] }
  | .pide k p =>
    if c.hilos[k]? = some .libre then
      .ok { c with hilos := c.hilos.set k (empezar sb c.storage p) }
    else .error .ocioso
  | .avanza k => match c.hilos[k]? with
    | none => .error .ocioso
    | some h => match avanzar c.storage h with
      | .ok (s, h') => .ok ⟨s, c.hilos.set k h'⟩
      | .error e => .error e

end Hilos

section UnHilo

variable {sb : Superbloque} {s s' : Storage} {p : Pedido}

/-- The thread gets from one place to another while no other thread runs. -/
def Sola (s : Storage) (h : Hilo) (s' : Storage) (h' : Hilo) : Prop :=
  Reaches (fun (q : Storage × Hilo) (_ : Unit) => avanzar q.1 q.2) (s, h) (s', h')

theorem Sola.refl (s : Storage) (h : Hilo) : Sola s h s h := Reaches.refl _

theorem Sola.head {t : Storage} {h g h' : Hilo} (hstep : avanzar s h = .ok (t, g))
    (hrest : Sola t g s' h') : Sola s h s' h' :=
  reaches_head (x := ()) hstep hrest

theorem Sola.trans {t : Storage} {h g h' : Hilo} (hfirst : Sola s h t g)
    (hrest : Sola t g s' h') : Sola s h s' h' :=
  reaches_trans hfirst hrest

/-- A turn of the growth loop. -/
theorem sola_agrandarUno {t : Storage} {nro : ℤ} {n : ℕ} {h' : Hilo}
    (h : agrandarUno s p.file p.tag nro = some t)
    (hrest : Sola t (agrandando p (nro + 1) n) s' h') : Sola s (.buscar p nro n) s' h' := by
  unfold agrandarUno at h
  cases hlibre : bitmapEncontrarBloqueLibre s.bitmap with
  | none => simp [hlibre] at h
  | some bf =>
    have hbusca : avanzar s (.buscar p nro n) = .ok (s, .ocupar p nro n bf) := by
      simp only [avanzar, hlibre]
    simp only [hlibre] at h
    refine .head hbusca (.head rfl ?_)
    split at h
    · rename_i e hlink
      cases h
      refine .head (t := { s with bitmap := bitmapMarcarBloqueOcupado s.bitmap bf })
        (g := .desocupar p nro n bf) ?_ (.head rfl hrest)
      simp only [avanzar, hlink]
    · rename_i disco hlink
      cases h
      refine .head (t := { s with
        bitmap := bitmapMarcarBloqueOcupado s.bitmap bf
        disco := disco }) (g := .agregar p nro n) ?_ (.head rfl hrest)
      simp only [avanzar, hlink]

theorem sola_agrandar {nro : ℤ} {n : ℕ} {fin : Bool}
    (h : agrandar s p.file p.tag nro n = (s', fin)) :
    Sola s (agrandando p nro n) s' (if fin then .terminar p else .libre) := by
  induction n generalizing s nro with
  | zero =>
    cases h
    exact .refl ..
  | succ n ih =>
    unfold agrandar at h
    cases huno : agrandarUno s p.file p.tag nro with
    | none =>
      have hno := (agrandarUno_eq_none_iff ..).mp huno
      simp only [huno] at h
      obtain ⟨rfl, rfl⟩ := Prod.mk.inj h
      refine .head (g := .libre) ?_ (.refl ..)
      simp only [agrandando, avanzar, hno]
    | some t =>
      simp only [huno] at h
      exact sola_agrandarUno huno (ih h)

/-- A turn of the shrink loop. -/
theorem sola_achicarUno {t : Storage} {n : ℕ} {h' : Hilo}
    (h : achicarUno s p.file p.tag = .ok t) (hrest : Sola t (achicando p n) s' h') :
    Sola s (.quitar p n) s' h' := by
  unfold achicarUno at h
  cases hultimo : (buscarTag s p.file p.tag).bind fun tag => tag.listaBlockLogicos.getLast? with
  | none =>
    simp only [hultimo] at h
    cases h
    refine .head ?_ hrest
    simp only [avanzar, hultimo]
  | some bl =>
    simp only [hultimo] at h
    refine .head (g := .desenlazar p n bl) (t := modificarTag s p.file p.tag quitarUltimo) ?_
      (.head ?_ hrest)
    · simp only [avanzar, hultimo]
    · have hbloque : desenlazarBloque (modificarTag s p.file p.tag quitarUltimo) p bl = .ok t := by
        unfold desenlazarBloque
        cases hindex : buscarIndexBlockFisico (modificarTag s p.file p.tag quitarUltimo)
            bl.bloqueFisicoAsociado with
        | none =>
          rw [hindex] at h
          cases h
          rfl
        | some indexBf =>
          rw [hindex] at h
          dsimp only at h ⊢
          split_ifs at h ⊢ with hcero
          cases h
          rfl
      simp only [avanzar, hbloque]

theorem sola_achicar {n : ℕ} (h : achicar s p.file p.tag n = .ok s') :
    Sola s (achicando p n) s' (.terminar p) := by
  induction n generalizing s with
  | zero =>
    cases h
    exact .refl ..
  | succ n ih =>
    unfold achicar at h
    cases huno : achicarUno s p.file p.tag with
    | error e => simp [huno] at h
    | ok t =>
      simp only [huno] at h
      exact sola_achicarUno huno (ih h)

/-- A thread alone does what operacion_truncate_file does in one piece. -/
theorem sola_truncate {r : ℤ}
    (h : operacionTruncateFile sb s p.file p.tag p.tamanio = .ok (s', r)) :
    Sola s (empezar sb s p) s' .libre := by
  unfold operacionTruncateFile at h
  unfold empezar
  split_ifs at h ⊢ with hsize
  · obtain ⟨rfl, _⟩ := Prod.mk.inj (Except.ok.inj h)
    exact .refl ..
  · cases htag : buscarTag s p.file p.tag with
    | none =>
      simp only [htag] at h
      obtain ⟨rfl, _⟩ := Prod.mk.inj (Except.ok.inj h)
      exact .refl ..
    | some tag =>
      simp only [htag] at h ⊢
      split_ifs at h ⊢ with hestado hgrow
      · obtain ⟨rfl, _⟩ := Prod.mk.inj (Except.ok.inj h)
        exact .refl ..
      · split at h
        · rename_i t hagrandar
          obtain ⟨rfl, _⟩ := Prod.mk.inj (Except.ok.inj h)
          exact sola_agrandar hagrandar
        · rename_i t hagrandar
          obtain ⟨rfl, _⟩ := Prod.mk.inj (Except.ok.inj h)
          exact (sola_agrandar hagrandar).trans (.head rfl (.refl ..))
      · split at h
        · cases h
        · rename_i t hachicar
          obtain ⟨rfl, _⟩ := Prod.mk.inj (Except.ok.inj h)
          exact (sola_achicar hachicar).trans (.head rfl (.refl ..))

/-- What a thread alone does, it does among others that wait. -/
theorem run_of_sola (sb : Superbloque) {h h' : Hilo} (hsola : Sola s h s' h')
    {hilos : List Hilo} {k : ℕ} (hk : hilos[k]? = some h) :
    ∃ m, run (pasoConcurrente sb) ⟨s, hilos⟩ (List.replicate m (.avanza k)) =
      .ok ⟨s', hilos.set k h'⟩ := by
  obtain ⟨xs, hxs⟩ := hsola
  refine ⟨xs.length, ?_⟩
  induction xs generalizing s h hilos with
  | nil =>
    cases hxs
    obtain ⟨hlt, hget⟩ := List.getElem?_eq_some_iff.mp hk
    rw [← hget, List.set_getElem_self hlt]
    rfl
  | cons x xs ih =>
    cases hstep : avanzar s h with
    | error e => simp [run, hstep] at hxs
    | ok q =>
      obtain ⟨t, g⟩ := q
      rw [run_cons xs hstep] at hxs
      have hpaso : pasoConcurrente sb ⟨s, hilos⟩ (.avanza k) = .ok ⟨t, hilos.set k g⟩ := by
        simp only [pasoConcurrente, hk, hstep]
      have hset := List.getElem?_set_self (a := g) (List.getElem?_eq_some_iff.mp hk).1
      rw [List.length_cons, List.replicate_succ, run_cons _ hpaso]
      have hrest := ih hset hxs
      rwa [List.set_set] at hrest

/-- A request served while no other thread runs leaves what operacion_truncate_file
leaves. -/
theorem run_truncate_sola {r : ℤ} {hilos : List Hilo} {k : ℕ} (hk : hilos[k]? = some .libre)
    (h : operacionTruncateFile sb s p.file p.tag p.tamanio = .ok (s', r)) :
    ∃ m, run (pasoConcurrente sb) ⟨s, hilos⟩ (.pide k p :: List.replicate m (.avanza k)) =
      .ok ⟨s', hilos⟩ := by
  obtain ⟨hlt, hget⟩ := List.getElem?_eq_some_iff.mp hk
  have hpide : pasoConcurrente sb ⟨s, hilos⟩ (.pide k p) =
      .ok ⟨s, hilos.set k (empezar sb s p)⟩ := by
    simp only [pasoConcurrente, hk, if_pos]
  obtain ⟨m, hm⟩ := run_of_sola sb (sola_truncate h)
    (List.getElem?_set_self (a := empezar sb s p) hlt)
  refine ⟨m, ?_⟩
  rw [run_cons _ hpide, hm, List.set_set, ← hget, List.set_getElem_self hlt]

end UnHilo

section Reservas

def buscando : Hilo → Bool
  | .buscar _ _ _ => true
  | _ => false

/-- The block that a thread has found and not marked. -/
def porOcupar : Hilo → Option ℕ
  | .ocupar _ _ _ bf => some bf
  | _ => none

/-- The block that a thread has marked and neither linked nor given back. -/
def ocupado : Hilo → Option ℕ
  | .enlazar _ _ _ bf => some bf
  | .desocupar _ _ _ bf => some bf
  | _ => none

def retenido (h : Hilo) : Option ℕ := (porOcupar h).or (ocupado h)

/-- A thread's step, as blocks and links see it. -/
inductive Avance (s : Storage) (h : Hilo) (s' : Storage) (h' : Hilo) : Prop
  | quieto (hret : retenido h' = none) (hbits : s'.bitmap = s.bitmap)
    (hlinks : ∀ r b, s'.disco.links r = some b → s.disco.links r = some b)
  | encuentra (bf : ℕ) (hlibre : bitmapEncontrarBloqueLibre s.bitmap = some bf)
    (hbusca : buscando h = true) (hret : porOcupar h' = some bf)
    (hocu : ocupado h' = none) (hs : s' = s)
  | ocupa (bf : ℕ) (hret : porOcupar h = some bf) (hret' : porOcupar h' = none)
    (hocu : ocupado h' = some bf)
    (hbits : s'.bitmap = bitmapMarcarBloqueOcupado s.bitmap bf) (hdisco : s'.disco = s.disco)
  | enlaza (bf : ℕ) (r : RutaBlock) (hocu : ocupado h = some bf) (hret : retenido h' = none)
    (hbits : s'.bitmap = s.bitmap)
    (hlinks : s'.disco.links = Function.update s.disco.links r (some (nombreBloqueLibre bf)))
  | falla (bf : ℕ) (hocu : ocupado h = some bf) (hret : porOcupar h' = none)
    (hocu' : ocupado h' = some bf) (hs : s' = s)
  | desocupa (bf : ℕ) (hocu : ocupado h = some bf) (hret : retenido h' = none)
    (hbits : s'.bitmap = bitmapMarcarBloqueLibre s.bitmap bf) (hdisco : s'.disco = s.disco)

theorem retenido_agrandando (p : Pedido) (nro : ℤ) (n : ℕ) :
    retenido (agrandando p nro n) = none := by
  cases n <;> rfl

theorem retenido_achicando (p : Pedido) (n : ℕ) : retenido (achicando p n) = none := by
  cases n <;> rfl

variable {sb : Superbloque} {s s' : Storage} {h h' : Hilo}

theorem retenido_empezar (sb : Superbloque) (s : Storage) (p : Pedido) :
    retenido (empezar sb s p) = none := by
  unfold empezar
  split_ifs
  · rfl
  · split
    · rfl
    · dsimp only
      split_ifs
      · rfl
      · exact retenido_agrandando ..
      · exact retenido_achicando ..

theorem desenlazarBloque_ok {p : Pedido} {bl : BlockLogico}
    (hok : desenlazarBloque s p bl = .ok s') : s'.bitmap = s.bitmap ∧
      ∀ r b, s'.disco.links r = some b → s.disco.links r = some b := by
  unfold desenlazarBloque at hok
  split at hok
  · cases hok
    exact ⟨rfl, fun _ _ hr => hr⟩
  · simp only at hok
    split_ifs at hok
    cases hok
    refine ⟨rfl, fun r b hr => ?_⟩
    by_cases heq : r = rutaBlockLogico p.file p.tag bl.nombreBlock
    · subst heq
      simp [sumarAsociados, Disco.unlink] at hr
    · simpa [sumarAsociados, Disco.unlink, Function.update_of_ne heq] using hr

theorem avance_of_avanzar (hok : avanzar s h = .ok (s', h')) : Avance s h s' h' := by
  cases h with
  | libre => cases hok
  | buscar p nro n =>
    simp only [avanzar] at hok
    split at hok
    · obtain ⟨rfl, rfl⟩ := Prod.mk.inj (Except.ok.inj hok)
      exact .quieto rfl rfl fun _ _ hr => hr
    · rename_i bf hlibre
      obtain ⟨rfl, rfl⟩ := Prod.mk.inj (Except.ok.inj hok)
      exact .encuentra bf hlibre rfl rfl rfl rfl
  | ocupar p nro n bf =>
    obtain ⟨rfl, rfl⟩ := Prod.mk.inj (Except.ok.inj hok)
    exact .ocupa bf rfl rfl rfl rfl rfl
  | enlazar p nro n bf =>
    simp only [avanzar] at hok
    split at hok
    · obtain ⟨rfl, rfl⟩ := Prod.mk.inj (Except.ok.inj hok)
      exact .falla bf rfl rfl rfl rfl
    · rename_i disco hlink
      obtain ⟨rfl, rfl⟩ := Prod.mk.inj (Except.ok.inj hok)
      unfold Disco.link at hlink
      split_ifs at hlink
      cases hlink
      exact .enlaza bf _ rfl rfl rfl rfl
  | agregar p nro n =>
    obtain ⟨rfl, rfl⟩ := Prod.mk.inj (Except.ok.inj hok)
    exact .quieto (retenido_agrandando ..) rfl fun _ _ hr => hr
  | desocupar p nro n bf =>
    obtain ⟨rfl, rfl⟩ := Prod.mk.inj (Except.ok.inj hok)
    exact .desocupa bf rfl (retenido_agrandando ..) rfl rfl
  | quitar p n =>
    simp only [avanzar] at hok
    split at hok
    · obtain ⟨rfl, rfl⟩ := Prod.mk.inj (Except.ok.inj hok)
      exact .quieto (retenido_achicando ..) rfl fun _ _ hr => hr
    · obtain ⟨rfl, rfl⟩ := Prod.mk.inj (Except.ok.inj hok)
      exact .quieto rfl rfl fun _ _ hr => hr
  | desenlazar p n bl =>
    simp only [avanzar] at hok
    split at hok
    · rename_i t ht
      obtain ⟨rfl, rfl⟩ := Prod.mk.inj (Except.ok.inj hok)
      obtain ⟨hbits, hlinks⟩ := desenlazarBloque_ok ht
      exact .quieto (retenido_achicando ..) hbits hlinks
    · cases hok
  | terminar p =>
    obtain ⟨rfl, rfl⟩ := Prod.mk.inj (Except.ok.inj hok)
    obtain ⟨mc, hmc⟩ := terminarTruncate_eq s p.file p.tag p.tamanio
    refine .quieto rfl ?_ fun r b hr => ?_
    · rw [hmc]
      rfl
    · rw [hmc] at hr
      exact hr

/-- Links go to marked blocks, no two threads hold one block, no link goes to a block
that a thread holds, and what a thread has marked stays marked. -/
structure Reservas (s : Storage) (hilos : List Hilo) : Prop where
  enlazados : ∀ r b, s.disco.links r = some b →
    ∃ n, b = nombreBloqueFisico n ∧ s.bitmap[n]? = some true
  unico : ∀ (i j : ℕ) (g g' : Hilo) (bf : ℕ), hilos[i]? = some g → hilos[j]? = some g' →
    retenido g = some bf → retenido g' = some bf → i = j
  sinEnlace : ∀ (i : ℕ) (g : Hilo) (bf : ℕ), hilos[i]? = some g → retenido g = some bf →
    ∀ r, s.disco.links r ≠ some (nombreBloqueFisico bf)
  cabe : ∀ (i : ℕ) (g : Hilo) (bf : ℕ), hilos[i]? = some g → porOcupar g = some bf →
    bf < s.bitmap.length
  marcados : ∀ (i : ℕ) (g : Hilo) (bf : ℕ), hilos[i]? = some g → ocupado g = some bf →
    s.bitmap[bf]? = some true

theorem retenido_of_porOcupar {bf : ℕ} (hp : porOcupar h = some bf) : retenido h = some bf := by
  rw [retenido, hp, Option.some_or]

theorem porOcupar_or_ocupado {bf : ℕ} (hret : retenido h = some bf) :
    porOcupar h = some bf ∨ ocupado h = some bf := by
  unfold retenido at hret
  cases hp : porOcupar h with
  | some n => exact Or.inl (by simpa [hp] using hret)
  | none => exact Or.inr (by simpa [hp] using hret)

theorem retenido_of_ocupado {bf : ℕ} (ho : ocupado h = some bf) : retenido h = some bf := by
  cases h with
  | enlazar => exact ho
  | desocupar => exact ho
  | _ => cases ho

section Movimiento

variable {hilos : List Hilo} {k : ℕ}

/-- What the thread that moves has to keep, of its own block and of those that the
others hold. -/
theorem Reservas.mover (hr : Reservas s hilos) (hk : hilos[k]? = some h)
    (hlinks : ∀ r b, s'.disco.links r = some b →
      ∃ n, b = nombreBloqueFisico n ∧ s'.bitmap[n]? = some true)
    (hlength : s'.bitmap.length = s.bitmap.length)
    (hpropio : ∀ bf, retenido h' = some bf → ∀ r, s'.disco.links r ≠ some (nombreBloqueFisico bf))
    (hcabe : ∀ bf, porOcupar h' = some bf → bf < s'.bitmap.length)
    (hmarca : ∀ bf, ocupado h' = some bf → s'.bitmap[bf]? = some true)
    (hotros : ∀ (j : ℕ) (g : Hilo) (bf : ℕ), j ≠ k → hilos[j]? = some g → retenido g = some bf →
      retenido h' ≠ some bf ∧ (s.bitmap[bf]? = some true → s'.bitmap[bf]? = some true) ∧
      ∀ r, s'.disco.links r ≠ some (nombreBloqueFisico bf)) :
    Reservas s' (hilos.set k h') where
  enlazados := hlinks
  unico := by
    intro i j g g' bf hi hj hg hg'
    rcases getElem?_set_cases hk hi with ⟨rfl, rfl⟩ | ⟨hik, hiold⟩
    · rcases getElem?_set_cases hk hj with ⟨rfl, rfl⟩ | ⟨hjk, hjold⟩
      · rfl
      · exact absurd hg (hotros j g' bf hjk hjold hg').1
    · rcases getElem?_set_cases hk hj with ⟨rfl, rfl⟩ | ⟨_, hjold⟩
      · exact absurd hg' (hotros i g bf hik hiold hg).1
      · exact hr.unico i j g g' bf hiold hjold hg hg'
  sinEnlace := by
    intro i g bf hi hg
    rcases getElem?_set_cases hk hi with ⟨_, rfl⟩ | ⟨hik, hi⟩
    · exact hpropio bf hg
    · exact (hotros i g bf hik hi hg).2.2
  cabe := by
    intro i g bf hi hg
    rcases getElem?_set_cases hk hi with ⟨_, rfl⟩ | ⟨_, hi⟩
    · exact hcabe bf hg
    · exact hlength ▸ hr.cabe i g bf hi hg
  marcados := by
    intro i g bf hi hg
    rcases getElem?_set_cases hk hi with ⟨_, rfl⟩ | ⟨hik, hi⟩
    · exact hmarca bf hg
    · exact (hotros i g bf hik hi (retenido_of_ocupado hg)).2.1 (hr.marcados i g bf hi hg)

/-- A thread that comes out with no block keeps only what the others have. -/
theorem Reservas.soltar (hr : Reservas s hilos) (hk : hilos[k]? = some h)
    (hret : retenido h' = none)
    (hlinks : ∀ r b, s'.disco.links r = some b →
      ∃ n, b = nombreBloqueFisico n ∧ s'.bitmap[n]? = some true)
    (hlength : s'.bitmap.length = s.bitmap.length)
    (hotros : ∀ (j : ℕ) (g : Hilo) (bf : ℕ), j ≠ k → hilos[j]? = some g → retenido g = some bf →
      (s.bitmap[bf]? = some true → s'.bitmap[bf]? = some true) ∧
      ∀ r, s'.disco.links r ≠ some (nombreBloqueFisico bf)) :
    Reservas s' (hilos.set k h') := by
  obtain ⟨hp, ho⟩ := Option.or_eq_none_iff.mp hret
  refine hr.mover hk hlinks hlength ?_ ?_ ?_ fun j g bf hjk hj hg => ⟨?_, hotros j g bf hjk hj hg⟩
  · intro bf hbf
    rw [hret] at hbf
    cases hbf
  · intro bf hbf
    rw [hp] at hbf
    cases hbf
  · intro bf hbf
    rw [ho] at hbf
    cases hbf
  · rw [hret]
    apply Option.some_ne_none bf |>.symm

/-- Another thread does not hold the block of this one. -/
theorem Reservas.otro (hr : Reservas s hilos) (hk : hilos[k]? = some h) {bf : ℕ}
    (hret : retenido h = some bf) {j : ℕ} {g : Hilo} (hjk : j ≠ k) (hj : hilos[j]? = some g)
    {bf' : ℕ} (hg : retenido g = some bf') : bf ≠ bf' := by
  rintro rfl
  exact hjk (hr.unico j k g h bf hj hk hg hret)

/-- A block that is found free is nobody's, unless another thread has found it too. -/
theorem Reservas.nadie (hr : Reservas s hilos) {bf : ℕ}
    (hlibre : bitmapEncontrarBloqueLibre s.bitmap = some bf)
    (hC : ∀ g ∈ hilos, porOcupar g ≠ some bf) {j : ℕ} {g : Hilo} (hj : hilos[j]? = some g) :
    retenido g ≠ some bf := by
  intro hg
  rcases porOcupar_or_ocupado hg with hp | ho
  · exact hC g (List.mem_of_getElem? hj) hp
  · have hbit := hr.marcados j g bf hj ho
    rw [bit_of_libre hlibre] at hbit
    cases hbit

/-- No link goes to a free block. -/
theorem Reservas.sin_enlace_libre (hr : Reservas s hilos) {bf : ℕ}
    (hbit : s.bitmap[bf]? = some false) (r : RutaBlock) :
    s.disco.links r ≠ some (nombreBloqueFisico bf) := by
  intro hlink
  obtain ⟨n, hn, hocupado⟩ := hr.enlazados r _ hlink
  rw [← nombreBloqueFisico_injective hn, hbit] at hocupado
  cases hocupado

theorem Reservas.quieto (hr : Reservas s hilos) (hk : hilos[k]? = some h)
    (hret : retenido h' = none) (hbits : s'.bitmap = s.bitmap)
    (hlinks : ∀ r b, s'.disco.links r = some b → s.disco.links r = some b) :
    Reservas s' (hilos.set k h') := by
  refine hr.soltar hk hret ?_ (by rw [hbits]) fun j g bf hjk hj hg => ⟨?_, ?_⟩
  · intro r b hlink
    rw [hbits]
    exact hr.enlazados r b (hlinks r b hlink)
  · rw [hbits]
    exact id
  · intro r hlink
    exact hr.sinEnlace j g bf hj hg r (hlinks r _ hlink)

theorem Reservas.encuentra (hr : Reservas s hilos) (hk : hilos[k]? = some h) {bf : ℕ}
    (hlibre : bitmapEncontrarBloqueLibre s.bitmap = some bf)
    (hret : porOcupar h' = some bf) (hocu : ocupado h' = none)
    (hC : ∀ g ∈ hilos, porOcupar g ≠ some bf) : Reservas s (hilos.set k h') := by
  have hretenido := retenido_of_porOcupar hret
  refine hr.mover hk hr.enlazados rfl ?_ ?_ ?_ fun j g bf' hjk hj hg => ⟨?_, id, ?_⟩
  · intro bf' hbf'
    rw [hretenido] at hbf'
    cases hbf'
    exact hr.sin_enlace_libre (bit_of_libre hlibre)
  · intro bf' hbf'
    rw [hret] at hbf'
    cases hbf'
    exact (List.getElem?_eq_some_iff.mp (bit_of_libre hlibre)).1
  · intro bf' hbf'
    rw [hocu] at hbf'
    cases hbf'
  · rw [hretenido]
    rintro heq
    cases heq
    exact hr.nadie hlibre hC hj hg
  · exact hr.sinEnlace j g bf' hj hg

theorem Reservas.ocupa (hr : Reservas s hilos) (hk : hilos[k]? = some h) {bf : ℕ}
    (hret : porOcupar h = some bf) (hret' : porOcupar h' = none) (hocu : ocupado h' = some bf)
    (hbits : s'.bitmap = bitmapMarcarBloqueOcupado s.bitmap bf) (hdisco : s'.disco = s.disco) :
    Reservas s' (hilos.set k h') := by
  have hretenido := retenido_of_porOcupar hret
  have hmarcado : s'.bitmap[bf]? = some true := by
    rw [hbits]
    exact List.getElem?_set_self (hr.cabe k h bf hk hret)
  have hsigue : ∀ n : ℕ, s.bitmap[n]? = some true → s'.bitmap[n]? = some true := by
    intro n hn
    by_cases heq : bf = n
    · exact heq ▸ hmarcado
    · rw [hbits]
      exact (List.getElem?_set_ne heq).trans hn
  refine hr.mover hk ?_ ?_ ?_ ?_ ?_ fun j g bf' hjk hj hg => ⟨?_, hsigue bf', ?_⟩
  · intro r b hlink
    rw [hdisco] at hlink
    obtain ⟨n, hn, hbit⟩ := hr.enlazados r b hlink
    exact ⟨n, hn, hsigue n hbit⟩
  · rw [hbits]
    apply List.length_set
  · intro bf' hbf'
    rw [retenido_of_ocupado hocu] at hbf'
    cases hbf'
    rw [hdisco]
    exact hr.sinEnlace k h bf hk hretenido
  · intro bf' hbf'
    rw [hret'] at hbf'
    cases hbf'
  · intro bf' hbf'
    rw [hocu] at hbf'
    cases hbf'
    exact hmarcado
  · rw [retenido_of_ocupado hocu]
    intro heq
    exact hr.otro hk hretenido hjk hj hg (Option.some.inj heq)
  · rw [hdisco]
    exact hr.sinEnlace j g bf' hj hg

theorem Reservas.enlaza (hr : Reservas s hilos) (hk : hilos[k]? = some h) {bf : ℕ}
    {r : RutaBlock} (hocu : ocupado h = some bf) (hret : retenido h' = none)
    (hbits : s'.bitmap = s.bitmap)
    (hlinks : s'.disco.links =
      Function.update s.disco.links r (some (nombreBloqueLibre bf))) :
    Reservas s' (hilos.set k h') := by
  have hretenido := retenido_of_ocupado hocu
  refine hr.soltar hk hret ?_ (by rw [hbits]) fun j g bf' hjk hj hg => ⟨?_, ?_⟩
  · intro r' b hlink
    rw [hbits]
    rw [hlinks] at hlink
    by_cases heq : r' = r
    · subst heq
      rw [Function.update_self] at hlink
      cases hlink
      exact ⟨bf, nombreBloqueLibre_eq bf, hr.marcados k h bf hk hocu⟩
    · rw [Function.update_of_ne heq] at hlink
      exact hr.enlazados r' b hlink
  · rw [hbits]
    exact id
  · intro r' hlink
    rw [hlinks] at hlink
    by_cases heq : r' = r
    · subst heq
      rw [Function.update_self, nombreBloqueLibre_eq] at hlink
      have hname := nombreBloqueFisico_injective (Option.some.inj hlink)
      exact hr.otro hk hretenido hjk hj hg hname
    · rw [Function.update_of_ne heq] at hlink
      exact hr.sinEnlace j g bf' hj hg r' hlink

theorem Reservas.falla (hr : Reservas s hilos) (hk : hilos[k]? = some h) {bf : ℕ}
    (hocu : ocupado h = some bf) (hret : porOcupar h' = none) (hocu' : ocupado h' = some bf) :
    Reservas s (hilos.set k h') := by
  have hretenido := retenido_of_ocupado hocu
  refine hr.mover hk hr.enlazados rfl ?_ ?_ ?_ fun j g bf' hjk hj hg => ⟨?_, id, ?_⟩
  · intro bf' hbf'
    rw [retenido_of_ocupado hocu'] at hbf'
    cases hbf'
    exact hr.sinEnlace k h bf hk hretenido
  · intro bf' hbf'
    rw [hret] at hbf'
    cases hbf'
  · intro bf' hbf'
    rw [hocu'] at hbf'
    cases hbf'
    exact hr.marcados k h bf hk hocu
  · rw [retenido_of_ocupado hocu']
    intro heq
    exact hr.otro hk hretenido hjk hj hg (Option.some.inj heq)
  · exact hr.sinEnlace j g bf' hj hg

theorem Reservas.desocupa (hr : Reservas s hilos) (hk : hilos[k]? = some h) {bf : ℕ}
    (hocu : ocupado h = some bf) (hret : retenido h' = none)
    (hbits : s'.bitmap = bitmapMarcarBloqueLibre s.bitmap bf) (hdisco : s'.disco = s.disco) :
    Reservas s' (hilos.set k h') := by
  have hretenido := retenido_of_ocupado hocu
  refine hr.soltar hk hret ?_ ?_ fun j g bf' hjk hj hg => ⟨?_, ?_⟩
  · intro r b hlink
    rw [hdisco] at hlink
    obtain ⟨n, rfl, hbit⟩ := hr.enlazados r b hlink
    have hne : bf ≠ n := by
      rintro rfl
      exact hr.sinEnlace k h bf hk hretenido r hlink
    refine ⟨n, rfl, ?_⟩
    rw [hbits]
    exact (List.getElem?_set_ne hne).trans hbit
  · rw [hbits]
    apply List.length_set
  · intro hbit
    rw [hbits]
    exact (List.getElem?_set_ne (hr.otro hk hretenido hjk hj hg)).trans hbit
  · rw [hdisco]
    exact hr.sinEnlace j g bf' hj hg

/-- A thread's step keeps the blocks apart, when no other thread is about to mark the
one it finds. -/
theorem reservas_avance (hr : Reservas s hilos) (hk : hilos[k]? = some h)
    (hav : Avance s h s' h')
    (hC : buscando h = true → ∀ bf ∈ bitmapEncontrarBloqueLibre s.bitmap,
      ∀ g ∈ hilos, porOcupar g ≠ some bf) : Reservas s' (hilos.set k h') := by
  cases hav with
  | quieto hret hbits hlinks => exact hr.quieto hk hret hbits hlinks
  | encuentra bf hlibre hbusca hret hocu hs =>
    subst hs
    exact hr.encuentra hk hlibre hret hocu (hC hbusca bf hlibre)
  | ocupa bf hret hret' hocu hbits hdisco => exact hr.ocupa hk hret hret' hocu hbits hdisco
  | enlaza bf r hocu hret hbits hlinks => exact hr.enlaza hk hocu hret hbits hlinks
  | falla bf hocu hret hocu' hs =>
    subst hs
    exact hr.falla hk hocu hret hocu'
  | desocupa bf hocu hret hbits hdisco => exact hr.desocupa hk hocu hret hbits hdisco

end Movimiento

end Reservas

section Enlaces

variable {md5 : Bytes → String} {sb : Superbloque} {c c' : Concurrente} {e : Evento}

/-- A thread that looks for a free block does not find one that another thread has
found and has yet to mark. -/
def SinCarrera (c : Concurrente) : Evento → Prop
  | .avanza k => ∀ h ∈ c.hilos[k]?, buscando h = true →
      ∀ bf ∈ bitmapEncontrarBloqueLibre c.storage.bitmap, ∀ g ∈ c.hilos, porOcupar g ≠ some bf
  | _ => True

instance : (c : Concurrente) → (e : Evento) → Decidable (SinCarrera c e)
  | c, .avanza k => inferInstanceAs (Decidable (∀ h ∈ c.hilos[k]?, buscando h = true →
      ∀ bf ∈ bitmapEncontrarBloqueLibre c.storage.bitmap, ∀ g ∈ c.hilos, porOcupar g ≠ some bf))
  | _, .conecta => inferInstanceAs (Decidable True)
  | _, .pide _ _ => inferInstanceAs (Decidable True)

/-- A link that the growth loop makes goes to a block that no logical block links to. -/
def EnlaceExclusivo (c : Concurrente) : Evento → Prop
  | .avanza k => ∀ p nro n bf, c.hilos[k]? = some (.enlazar p nro n bf) →
      (c.storage.disco.link (nombreBloqueLibre bf)
        (rutaBlockLogico p.file p.tag (crearNombreBloqueLogico nro))).isOk = true →
      ∀ r, c.storage.disco.links r ≠ some (nombreBloqueLibre bf)
  | _ => True

theorem of_conectado {hilos : List Hilo} {i : ℕ} {g : Hilo} {bf : ℕ}
    (hi : (hilos ++ [Hilo.libre])[i]? = some g) (hg : retenido g = some bf) :
    hilos[i]? = some g := by
  rw [List.getElem?_append] at hi
  split_ifs at hi
  · exact hi
  · rw [List.getElem?_singleton] at hi
    split_ifs at hi
    cases hi
    cases hg

theorem Reservas.conecta {s : Storage} {hilos : List Hilo} (hr : Reservas s hilos) :
    Reservas s (hilos ++ [.libre]) where
  enlazados := hr.enlazados
  unico i j g g' bf hi hj hg hg' :=
    hr.unico i j g g' bf (of_conectado hi hg) (of_conectado hj hg') hg hg'
  sinEnlace i g bf hi hg := hr.sinEnlace i g bf (of_conectado hi hg) hg
  cabe i g bf hi hg := hr.cabe i g bf (of_conectado hi (retenido_of_porOcupar hg)) hg
  marcados i g bf hi hg := hr.marcados i g bf (of_conectado hi (retenido_of_ocupado hg)) hg

theorem reservas_paso (hr : Reservas c.storage c.hilos) (hC : SinCarrera c e)
    (hstep : pasoConcurrente sb c e = .ok c') : Reservas c'.storage c'.hilos := by
  cases e with
  | conecta =>
    cases hstep
    exact hr.conecta
  | pide k p =>
    simp only [pasoConcurrente] at hstep
    split_ifs at hstep with hk
    cases hstep
    exact hr.quieto hk (retenido_empezar ..) rfl fun _ _ hr => hr
  | avanza k =>
    simp only [pasoConcurrente] at hstep
    split at hstep
    · cases hstep
    · rename_i h hk
      split at hstep
      · rename_i s h' hav
        cases hstep
        exact reservas_avance hr hk (avance_of_avanzar hav) (hC h hk)
      · cases hstep

theorem reservas_alcanzable {s : Storage} (h : Alcanzable md5 sb s) : Reservas s [] where
  enlazados r b hlink := by
    obtain ⟨k, _, hname, hbit⟩ := (coherente_alcanzable h).enlace_ocupado r b hlink
    exact ⟨k, hname, hbit⟩
  unico := by simp
  sinEnlace := by simp
  cabe := by simp
  marcados := by simp

theorem enlaceExclusivo_of_reservas (hr : Reservas c.storage c.hilos) (e : Evento) :
    EnlaceExclusivo c e := by
  cases e with
  | avanza k =>
    intro p nro n bf hk _ r
    rw [nombreBloqueLibre_eq]
    exact hr.sinEnlace k _ bf hk rfl r
  | _ => trivial

/-- Where no thread finds a block that another has found and not marked, every link of
every run goes to a block of its own. -/
theorem enlacesExclusivos_run {s : Storage} (h : Alcanzable md5 sb s) {xs : List Evento}
    (hC : EachStep (pasoConcurrente sb) SinCarrera ⟨s, []⟩ xs) :
    EachStep (pasoConcurrente sb) EnlaceExclusivo ⟨s, []⟩ xs :=
  eachStep_of_invariant (I := fun c => Reservas c.storage c.hilos)
    (fun _ _ _ hr hCe hstep => reservas_paso hr hCe hstep)
    (fun _ e _ hr _ _ => enlaceExclusivo_of_reservas hr e) (reservas_alcanzable h) hC

/-- Two threads grow a tag each, and the second looks after the first has marked. -/
def corridaEnOrden : List Evento :=
  [.conecta, .conecta, .pide 0 ⟨"a", "b", 2⟩, .pide 1 ⟨"c", "d", 2⟩, .avanza 0, .avanza 0,
    .avanza 1, .avanza 0, .avanza 1, .avanza 1, .avanza 0, .avanza 1, .avanza 0, .avanza 1]

theorem enlacesExclusivos_run_enOrden :
    EachStep (pasoConcurrente superbloqueChico) EnlaceExclusivo
      ⟨estadoTras hashLegible superbloqueChico [.create "a" "b", .create "c" "d"], []⟩
      corridaEnOrden :=
  enlacesExclusivos_run (alcanzable_estadoTras ..) (by decide)

/-- Both threads have found block0001 before either marks it. -/
def corridaConCarrera : List Evento :=
  [.conecta, .conecta, .pide 0 ⟨"a", "b", 2⟩, .pide 1 ⟨"c", "d", 2⟩, .avanza 0, .avanza 1,
    .avanza 0, .avanza 1, .avanza 0]

def estadoConCarrera : Concurrente :=
  after (pasoConcurrente superbloqueChico)
    ⟨estadoTras hashLegible superbloqueChico [.create "a" "b", .create "c" "d"], []⟩
    corridaConCarrera

/-- The two tags share block0001. -/
theorem not_enlacesExclusivos_conCarrera :
    ¬ ∀ (md5 : Bytes → String) (sb : Superbloque) (s : Storage) (xs : List Evento),
      Alcanzable md5 sb s → EachStep (pasoConcurrente sb) EnlaceExclusivo ⟨s, []⟩ xs := by
  intro h
  have hall := h hashLegible superbloqueChico
    (estadoTras hashLegible superbloqueChico [.create "a" "b", .create "c" "d"])
    (corridaConCarrera ++ [.avanza 1]) (alcanzable_estadoTras ..)
  have hrun : run (pasoConcurrente superbloqueChico)
      ⟨estadoTras hashLegible superbloqueChico [.create "a" "b", .create "c" "d"], []⟩
      corridaConCarrera = .ok estadoConCarrera := run_eq_after (by decide)
  have hlast : EnlaceExclusivo estadoConCarrera (.avanza 1) := eachStep_last hall hrun (by decide)
  have hhilo : estadoConCarrera.hilos[1]? = some (.enlazar ⟨"c", "d", 2⟩ 0 0 1) := by decide
  have hlink : estadoConCarrera.storage.disco.links
      (rutaBlockLogico "a" "b" (crearNombreBloqueLogico 0)) = some (nombreBloqueLibre 1) := by
    decide
  exact hlast _ _ _ _ hhilo (by decide) _ hlink

end Enlaces

end MasterOfFiles.ConcurrentTruncate
