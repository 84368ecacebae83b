import MasterOfFiles.CommitDeduplication
import MasterOfFiles.TruncateTurns

/-!
Where COMMIT takes the blocks of a Tag, from any state in which the index only has
blocks with a file: to the block the index has for the hash of their contents or,
where it has none, to that of the first block in the list with the same hash.
-/
namespace MasterOfFiles.CommitTargets

open ByteBuffers ConfigText StorageState StorageOperations RequestEffects CommitDeduplication
open TruncateTurns

variable {md5 : Bytes → String} {s s' : Storage} {f t : String}
variable {bl bl' : BlockLogico} {bls bls' : List BlockLogico}

/-- The hash of what is behind the link of a block. -/
def hashDe (md5 : Bytes → String) (s : Storage) (f t : String) (bl : BlockLogico) :
    Option String :=
  (s.disco.getContenido (rutaBlockLogico f t bl.nombreBlock)).map (hashContenido md5)

/-- The first block of the list whose contents have the hash. -/
def primero (md5 : Bytes → String) (s : Storage) (f t : String) (bls : List BlockLogico)
    (hash : String) : Option String :=
  (bls.find? fun bl => hashDe md5 s f t bl = some hash).map BlockLogico.bloqueFisicoAsociado

/-- The block a COMMIT of `bls` associates one of them with. -/
def destino (md5 : Bytes → String) (s : Storage) (f t : String) (bls : List BlockLogico)
    (bl : BlockLogico) : String :=
  match hashDe md5 s f t bl with
  | none => bl.bloqueFisicoAsociado
  | some hash => ((configGet s.hashIndexConfig hash).or (primero md5 s f t bls hash)).getD
      bl.bloqueFisicoAsociado

def redirigir (md5 : Bytes → String) (s : Storage) (f t : String) (bls : List BlockLogico) :
    List BlockLogico :=
  bls.map fun bl => { bl with bloqueFisicoAsociado := destino md5 s f t bls bl }

section Bloque

/-- What COMMIT does with one block. -/
structure Procesado (md5 : Bytes → String) (f t : String) (s : Storage) (bl : BlockLogico)
    (hash : String) (s' : Storage) (bl' : BlockLogico) : Prop where
  hash_eq : hashDe md5 s f t bl = some hash
  bloque : bl' = { bl with
    bloqueFisicoAsociado := (configGet s.hashIndexConfig hash).getD bl.bloqueFisicoAsociado }
  lista : s'.listaFiles = s.listaFiles
  enlaces : SoloEnlaces f t [bl.nombreBlock] s s'
  enlazado : (s'.disco.links (rutaBlockLogico f t bl.nombreBlock)).isSome
  indice : s'.hashIndexConfig = match configGet s.hashIndexConfig hash with
    | none => configSetValue s.hashIndexConfig hash bl.bloqueFisicoAsociado
    | some _ => s.hashIndexConfig

theorem procesarBloqueCommit_efecto
    (hindice : ∀ p ∈ s.hashIndexConfig, (s.disco.physicalBlocks p.2).isSome)
    (hdir : s.disco.tagDirs (rutaTag f t) = true)
    (hop : procesarBloqueCommit md5 f t s bl = .ok (s', bl')) :
    ∃ hash, Procesado md5 f t s bl hash s' bl' := by
  obtain ⟨c, hc, hcasos⟩ := procesarBloqueCommit_pasos hop
  have hhash : hashDe md5 s f t bl = some (hashContenido md5 c) := by
    rw [hashDe, hc, Option.map_some]
  have hlink : (s.disco.links (rutaBlockLogico f t bl.nombreBlock)).isSome := by
    obtain ⟨b, hb, _⟩ := Option.bind_eq_some_iff.mp hc
    rw [hb]
    rfl
  refine ⟨hashContenido md5 c, ?_⟩
  obtain ⟨hnone, rfl, rfl⟩ | ⟨hget, rfl, rfl⟩ | ⟨b, hget, _, hreasignar⟩ := hcasos
  · refine ⟨hhash, ?_, rfl, ⟨rfl, rfl, rfl, fun _ _ => rfl⟩, hlink, ?_⟩
    · rw [hnone, Option.getD_none]
    · rw [hnone]
      rfl
  · refine ⟨hhash, ?_, rfl, ⟨rfl, rfl, rfl, fun _ _ => rfl⟩, hlink, ?_⟩
    · rw [hget, Option.getD_some]
    · rw [hget]
  · have hbf := hindice _ (mem_of_configGet hget)
    obtain ⟨bfs, bitmap, hs'⟩ := reasignar_enlaza (r := rutaBlockLogico f t bl.nombreBlock) hbf hdir
      bl bl.bloqueFisicoAsociado
    rw [hreasignar] at hs'
    dsimp only at hs'
    obtain rfl := hs'
    rw [reasignar_eq] at hreasignar
    refine ⟨hhash, ?_, rfl, ⟨rfl, rfl, rfl, fun r hr => ?_⟩, ?_, ?_⟩
    · rw [hget, Option.getD_some]
      exact (Prod.mk.inj hreasignar).2.symm
    · exact Function.update_of_ne (hr _ (List.mem_singleton.mpr rfl)) ..
    · change (Function.update s.disco.links (rutaBlockLogico f t bl.nombreBlock) _ _).isSome
      rw [Function.update_self]
      rfl
    · rw [hget]

namespace Procesado

variable {hash : String}

/-- Where the block is taken, the index then has its hash. -/
theorem configGet_eq (h : Procesado md5 f t s bl hash s' bl') (hash' : String) :
    configGet s'.hashIndexConfig hash' = (configGet s.hashIndexConfig hash').or
      (if hash' = hash then some bl.bloqueFisicoAsociado else none) := by
  rw [h.indice]
  cases hget : configGet s.hashIndexConfig hash with
  | none =>
    dsimp only
    split_ifs with heq
    · rw [heq, configGet_set_self, hget, Option.none_or]
    · rw [configGet_set_ne _ _ heq, Option.or_none]
  | some b =>
    dsimp only
    split_ifs with heq
    · rw [heq, hget, Option.some_or]
    · rw [Option.or_none]

theorem mem_indice (h : Procesado md5 f t s bl hash s' bl') {p : String × String}
    (hp : p ∈ s'.hashIndexConfig) :
    p ∈ s.hashIndexConfig ∨ bl.bloqueFisicoAsociado = p.2 := by
  rw [h.indice] at hp
  split at hp
  · rcases mem_configSetValue hp with hold | rfl
    · exact Or.inl hold
    · exact Or.inr rfl
  · exact Or.inl hp

/-- The contents of a block with another name are the ones it had. -/
theorem hashDe_otro (h : Procesado md5 f t s bl hash s' bl') {bl₂ : BlockLogico}
    (hne : bl₂.nombreBlock ≠ bl.nombreBlock) : hashDe md5 s' f t bl₂ = hashDe md5 s f t bl₂ := by
  have hlinks := h.enlaces.enlaces (rutaBlockLogico f t bl₂.nombreBlock) fun nombre hnombre heq =>
    hne ((congrArg (fun r : RutaBlock => r.2.2) heq).trans (List.mem_singleton.mp hnombre))
  rw [hashDe, hashDe, Disco.getContenido, Disco.getContenido, hlinks, h.enlaces.archivos]

theorem destino_cons_self (h : Procesado md5 f t s bl hash s' bl') (bls : List BlockLogico) :
    destino md5 s f t (bl :: bls) bl = bl'.bloqueFisicoAsociado := by
  have hprimero : primero md5 s f t (bl :: bls) hash = some bl.bloqueFisicoAsociado := by
    rw [primero, List.find?_cons_of_pos (by simpa using h.hash_eq), Option.map_some]
  rw [destino, h.hash_eq, h.bloque]
  dsimp only
  rw [hprimero]
  cases configGet s.hashIndexConfig hash with
  | none => rfl
  | some b => rfl

/-- The blocks that are left are taken where they would have been in the whole list. -/
theorem destino_cons_otro (h : Procesado md5 f t s bl hash s' bl')
    (hnombres : ((bl :: bls).map BlockLogico.nombreBlock).Nodup) {bl₂ : BlockLogico}
    (hbl₂ : bl₂ ∈ bls) : destino md5 s' f t bls bl₂ = destino md5 s f t (bl :: bls) bl₂ := by
  have hne : ∀ bl₂ ∈ bls, bl₂.nombreBlock ≠ bl.nombreBlock := fun bl₂ hbl₂ heq =>
    (List.nodup_cons.mp hnombres).1 (List.mem_map.mpr ⟨bl₂, hbl₂, heq⟩)
  have hprimero : ∀ hash', primero md5 s' f t bls hash' = primero md5 s f t bls hash' := by
    intro hash'
    unfold primero
    rw [← List.head?_filter, ← List.head?_filter]
    congr 2
    refine List.filter_congr fun bl₃ hbl₃ => ?_
    rw [h.hashDe_otro (hne bl₃ hbl₃)]
  rw [destino, destino, h.hashDe_otro (hne bl₂ hbl₂)]
  cases hashDe md5 s f t bl₂ with
  | none => rfl
  | some hash' =>
    dsimp only
    rw [h.configGet_eq, hprimero, Option.or_assoc]
    congr 2
    split_ifs with heq
    · rw [heq, Option.some_or, primero, List.find?_cons_of_pos (by simpa using h.hash_eq),
        Option.map_some]
    · rw [Option.none_or, primero, primero, List.find?_cons_of_neg]
      simpa [h.hash_eq] using fun hhash => heq hhash.symm

end Procesado

end Bloque

/-- A COMMIT that goes through its blocks takes each to its destination. -/
theorem procesarBloques_efecto
    (hindice : ∀ p ∈ s.hashIndexConfig, (s.disco.physicalBlocks p.2).isSome)
    (hbls : ∀ bl ∈ bls, (s.disco.physicalBlocks bl.bloqueFisicoAsociado).isSome)
    (hdir : s.disco.tagDirs (rutaTag f t) = true)
    (hnombres : (bls.map BlockLogico.nombreBlock).Nodup)
    (hop : procesarBloques md5 f t s bls = .ok (s', bls')) :
    bls' = redirigir md5 s f t bls ∧ s'.listaFiles = s.listaFiles ∧
      SoloEnlaces f t (bls.map BlockLogico.nombreBlock) s s' ∧
      (∀ p ∈ s'.hashIndexConfig, p ∈ s.hashIndexConfig ∨
        ∃ bl ∈ bls, bl.bloqueFisicoAsociado = p.2) ∧
      ∀ bl ∈ bls, (s'.disco.links (rutaBlockLogico f t bl.nombreBlock)).isSome := by
  induction bls generalizing s bls' with
  | nil =>
    obtain ⟨rfl, rfl⟩ := Prod.mk.inj (Except.ok.inj hop)
    exact ⟨rfl, rfl, SoloEnlaces.refl f t s, fun _ hp => Or.inl hp,
      fun _ hbl => absurd hbl List.not_mem_nil⟩
  | cons bl bls ih =>
    obtain ⟨s₁, bl₁, bls₂, hhead, htail, rfl⟩ := procesarBloques_cons_ok hop
    obtain ⟨hash, huno⟩ := procesarBloqueCommit_efecto hindice hdir hhead
    have hotro := (List.nodup_cons.mp hnombres).1
    obtain ⟨rfl, hlista, henlaces, hind, henlazados⟩ := ih (s := s₁)
      (by
        intro p hp
        rw [huno.enlaces.archivos]
        rcases huno.mem_indice hp with hold | hnew
        · exact hindice p hold
        · exact hnew ▸ hbls bl (List.mem_cons_self ..))
      (by
        intro bl₂ hbl₂
        rw [huno.enlaces.archivos]
        exact hbls bl₂ (List.mem_cons_of_mem _ hbl₂))
      (by rw [huno.enlaces.carpetas, hdir]) (List.nodup_cons.mp hnombres).2 htail
    refine ⟨?_, hlista.trans huno.lista, huno.enlaces.trans henlaces, ?_, ?_⟩
    · have hself : bl₁ = { bl with
          bloqueFisicoAsociado := destino md5 s f t (bl :: bls) bl } := by
        rw [huno.destino_cons_self, huno.bloque]
      have hresto : redirigir md5 s₁ f t bls = bls.map fun bl₂ => { bl₂ with
          bloqueFisicoAsociado := destino md5 s f t (bl :: bls) bl₂ } := by
        refine List.map_congr_left fun bl₂ hbl₂ => ?_
        rw [huno.destino_cons_otro hnombres hbl₂]
      rw [hself, hresto]
      rfl
    · intro p hp
      rcases hind p hp with hold | ⟨bl₂, hbl₂, heq⟩
      · rcases huno.mem_indice hold with hold | hnew
        · exact Or.inl hold
        · exact Or.inr ⟨bl, List.mem_cons_self .., hnew⟩
      · exact Or.inr ⟨bl₂, List.mem_cons_of_mem _ hbl₂, heq⟩
    · intro bl₂ hbl₂
      rcases List.mem_cons.mp hbl₂ with rfl | hbl₂
      · rw [henlaces.enlaces]
        · exact huno.enlazado
        · intro nombre hnombre heq
          obtain rfl := congrArg (fun r : RutaBlock => r.2.2) heq
          exact hotro hnombre
      · exact henlazados bl₂ hbl₂

end MasterOfFiles.CommitTargets
