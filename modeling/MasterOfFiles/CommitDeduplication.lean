import MasterOfFiles.LinkAgreement
import MasterOfFiles.WriteReadback

/-!
COMMIT's deduplication, from any state whose links, files and hash index agree.
After a block is processed its link goes to the block the index names for its
hash, and the index keeps what it said; the hash only covers a block up to its
first NUL, so two blocks of one hash may differ behind it.
-/
namespace MasterOfFiles.CommitDeduplication

open KeyedLists ByteBuffers ConfigText BlockNames StorageState StorageFiles StorageOperations
open TagLookups BlockZero TruncateEffects ReachableStates LinkAgreement WriteReadback

variable {md5 : Bytes → String} {sb : Superbloque} {s₀ s s' : Storage} {f t : String}

/-- Links agree with the associations in memory, and the index with the contents;
a linked block has a file, which fills a block, and a link is in a directory. -/
structure Consistente (md5 : Bytes → String) (sb : Superbloque) (s : Storage) : Prop where
  enlaces : LinksAgree s
  indice : ∀ h b, configGet s.hashIndexConfig h = some b →
    ∃ c, s.disco.physicalBlocks b = some c ∧ hashContenido md5 c = h
  archivos : ∀ r b, s.disco.links r = some b → (s.disco.physicalBlocks b).isSome
  largos : ∀ b c, s.disco.physicalBlocks b = some c → c.length = sb.blockSize
  carpetas : ∀ r b, s.disco.links r = some b → s.disco.tagDirs (directorio r) = true

section Reasignar

/-- The link of the block, when it is moved; the old one is gone in any case. -/
def moverEnlace (d : Disco) (r : RutaBlock) (bfNuevo : String) : Disco :=
  match (d.unlink r).link bfNuevo r with
  | .ok disco => disco
  | .error _ => d.unlink r

/-- A block that is let go by its last logical block gets its bit cleared. -/
def soltarViejo (s : Storage) (bfViejo : String) : Storage :=
  match buscarIndexBlockFisico s bfViejo with
  | none => s
  | some idxViejo =>
    let s := sumarAsociados s idxViejo (-1)
    if (s.listaBloquesFisicos[idxViejo]?.map BlockFisico.blogicoAsociados) = some 0 ∧
        idxViejo ≠ 0 then { s with bitmap := bitmapMarcarBloqueLibre s.bitmap idxViejo }
    else s

def tomarNuevo (s : Storage) (bfNuevo : String) : Storage :=
  match buscarIndexBlockFisico s bfNuevo with
  | none => s
  | some idxNuevo => sumarAsociados s idxNuevo 1

theorem reasignar_eq (s : Storage) (r : RutaBlock) (bl : BlockLogico) (bfNuevo bfViejo : String) :
    reasignarBloqueLogico s r bl bfNuevo bfViejo =
      (tomarNuevo (soltarViejo (cambiarDisco s (moverEnlace s.disco r bfNuevo)) bfViejo) bfNuevo,
        { bl with bloqueFisicoAsociado := bfNuevo }) := rfl

/-- Counters and bitmap apart, the two changes of a count do nothing. -/
theorem soltarTomar_eq (s : Storage) (bfViejo bfNuevo : String) :
    ∃ bfs bitmap, tomarNuevo (soltarViejo s bfViejo) bfNuevo =
      { s with listaBloquesFisicos := bfs, bitmap := bitmap } := by
  have hsoltar : ∃ bfs bitmap, soltarViejo s bfViejo =
      { s with listaBloquesFisicos := bfs, bitmap := bitmap } := by
    unfold soltarViejo
    split
    · exact ⟨_, _, rfl⟩
    · dsimp only
      split_ifs
      · exact ⟨_, _, rfl⟩
      · exact ⟨_, _, rfl⟩
  obtain ⟨bfs, bitmap, hs⟩ := hsoltar
  rw [hs]
  unfold tomarNuevo
  split
  · exact ⟨_, _, rfl⟩
  · exact ⟨_, _, rfl⟩

theorem moverEnlace_eq {d : Disco} {r : RutaBlock} {bfNuevo : String}
    (hbf : (d.physicalBlocks bfNuevo).isSome) (hdir : d.tagDirs (directorio r) = true) :
    moverEnlace d r bfNuevo = cambiarEnlaces d (Function.update d.links r (some bfNuevo)) := by
  have hlink : (d.unlink r).link bfNuevo r =
      .ok (cambiarEnlaces d (Function.update d.links r (some bfNuevo))) := by
    unfold Disco.link Disco.unlink cambiarEnlaces
    rw [if_neg (by simp [hdir, Option.isSome_iff_ne_none.mp hbf]), if_neg (by simp)]
    simp
  unfold moverEnlace
  rw [hlink]

/-- Where the new block has a file and the link a directory, the link is moved;
nothing else changes, counters and bitmap apart. -/
theorem reasignar_enlaza {r : RutaBlock} {bfNuevo : String}
    (hbf : (s.disco.physicalBlocks bfNuevo).isSome)
    (hdir : s.disco.tagDirs (directorio r) = true) (bl : BlockLogico) (bfViejo : String) :
    ∃ bfs bitmap, (reasignarBloqueLogico s r bl bfNuevo bfViejo).1 =
      { s with
        listaBloquesFisicos := bfs
        bitmap := bitmap
        disco := cambiarEnlaces s.disco (Function.update s.disco.links r (some bfNuevo)) } := by
  obtain ⟨bfs, bitmap, heq⟩ := soltarTomar_eq (cambiarDisco s (moverEnlace s.disco r bfNuevo))
    bfViejo bfNuevo
  refine ⟨bfs, bitmap, ?_⟩
  rw [reasignar_eq, heq, moverEnlace_eq hbf hdir]
  rfl

end Reasignar

section Recorrido

/-- What COMMIT of the blocks `bls` has done to the state `s₀` on its way. -/
structure Avance (md5 : Bytes → String) (s₀ : Storage) (f t : String) (bls : List BlockLogico)
    (s : Storage) : Prop where
  archivos : s.disco.physicalBlocks = s₀.disco.physicalBlocks
  carpetas : s.disco.tagDirs = s₀.disco.tagDirs
  lista : s.listaFiles = s₀.listaFiles
  otros : ∀ r, (∀ bl ∈ bls, r ≠ rutaBlockLogico f t bl.nombreBlock) →
    s.disco.links r = s₀.disco.links r
  conserva : ∀ h b, configGet s₀.hashIndexConfig h = some b → configGet s.hashIndexConfig h = some b
  origen : ∀ h b, configGet s.hashIndexConfig h = some b →
    configGet s₀.hashIndexConfig h = some b ∨ ∃ bl ∈ bls, bl.bloqueFisicoAsociado = b ∧
      ∃ c, s₀.disco.physicalBlocks b = some c ∧ hashContenido md5 c = h
  caminos : ∀ bl ∈ bls, ∀ c₀, s₀.disco.physicalBlocks bl.bloqueFisicoAsociado = some c₀ →
    ∃ b c, s.disco.links (rutaBlockLogico f t bl.nombreBlock) = some b ∧
      s₀.disco.physicalBlocks b = some c ∧ hashContenido md5 c = hashContenido md5 c₀ ∧
      (b = bl.bloqueFisicoAsociado ∨ configGet s.hashIndexConfig (hashContenido md5 c₀) = some b)

/-- The block is linked where the index says. -/
def Listo (md5 : Bytes → String) (s₀ : Storage) (f t : String) (s : Storage) (bl : BlockLogico) :
    Prop :=
  ∀ c₀, s₀.disco.physicalBlocks bl.bloqueFisicoAsociado = some c₀ →
    ∃ b, s.disco.links (rutaBlockLogico f t bl.nombreBlock) = some b ∧
      configGet s.hashIndexConfig (hashContenido md5 c₀) = some b

variable {bls : List BlockLogico}

theorem avance_refl (hbls : ∀ bl ∈ bls, s₀.disco.links (rutaBlockLogico f t bl.nombreBlock) =
    some bl.bloqueFisicoAsociado) : Avance md5 s₀ f t bls s₀ where
  archivos := rfl
  carpetas := rfl
  lista := rfl
  otros := fun _ _ => rfl
  conserva := fun _ _ hget => hget
  origen := fun _ _ hget => Or.inl hget
  caminos := fun bl hbl c₀ hc₀ => ⟨_, c₀, hbls bl hbl, hc₀, rfl, Or.inl rfl⟩

/-- The index is sound on the way. -/
theorem Avance.indice (ha : Avance md5 s₀ f t bls s) (h : Consistente md5 sb s₀) {hash b : String}
    (hget : configGet s.hashIndexConfig hash = some b) :
    ∃ c, s₀.disco.physicalBlocks b = some c ∧ hashContenido md5 c = hash := by
  rcases ha.origen hash b hget with hold | ⟨_, _, _, hnew⟩
  · exact h.indice hash b hold
  · exact hnew

/-- A block of a new hash puts it into the index. -/
theorem avance_agregarHashNuevo (ha : Avance md5 s₀ f t bls s) {bl : BlockLogico} (hbl : bl ∈ bls)
    {c₀ : Bytes} (hc₀ : s₀.disco.physicalBlocks bl.bloqueFisicoAsociado = some c₀)
    (hnone : configGet s.hashIndexConfig (hashContenido md5 c₀) = none) :
    Avance md5 s₀ f t bls
        (agregarHashNuevo s (hashContenido md5 c₀) bl.bloqueFisicoAsociado) ∧
      Listo md5 s₀ f t (agregarHashNuevo s (hashContenido md5 c₀) bl.bloqueFisicoAsociado) bl ∧
      ∀ bl', Listo md5 s₀ f t s bl' →
        Listo md5 s₀ f t (agregarHashNuevo s (hashContenido md5 c₀) bl.bloqueFisicoAsociado)
          bl' := by
  have hkeep : ∀ h b, configGet s.hashIndexConfig h = some b →
      configGet (configSetValue s.hashIndexConfig (hashContenido md5 c₀)
        bl.bloqueFisicoAsociado) h = some b := by
    intro h b hget
    rw [configGet_set_ne _ _ (fun heq => by simp [heq, hnone] at hget)]
    exact hget
  refine ⟨⟨ha.archivos, ha.carpetas, ha.lista, ha.otros, ?_, ?_, ?_⟩, ?_, ?_⟩
  · exact fun h b hget => hkeep h b (ha.conserva h b hget)
  · intro h b hget
    change configGet (configSetValue s.hashIndexConfig _ _) h = some b at hget
    by_cases heq : h = hashContenido md5 c₀
    · rw [heq, configGet_set_self] at hget
      obtain rfl := Option.some.inj hget
      exact Or.inr ⟨bl, hbl, rfl, c₀, hc₀, heq.symm⟩
    · rw [configGet_set_ne _ _ heq] at hget
      exact ha.origen h b hget
  · intro bl' hbl' c' hc'
    obtain ⟨b, c, hlink, hc, hhash, hb⟩ := ha.caminos bl' hbl' c' hc'
    exact ⟨b, c, hlink, hc, hhash, hb.imp id (hkeep _ b)⟩
  · intro c hc
    obtain rfl := Option.some.inj (hc₀.symm.trans hc)
    obtain ⟨b, _, hlink, _, _, hb⟩ := ha.caminos bl hbl c₀ hc₀
    rcases hb with rfl | hget
    · exact ⟨_, hlink, configGet_set_self ..⟩
    · simp [hnone] at hget
  · intro bl' hlisto c hc
    obtain ⟨b, hlink, hget⟩ := hlisto c hc
    exact ⟨b, hlink, hkeep _ b hget⟩

/-- A path names one block of the list, or blocks with one association. -/
theorem contenido_of_ruta (hbls : ∀ bl ∈ bls, s₀.disco.links
      (rutaBlockLogico f t bl.nombreBlock) = some bl.bloqueFisicoAsociado) {bl bl' : BlockLogico}
    (hbl : bl ∈ bls) (hbl' : bl' ∈ bls)
    (hruta : rutaBlockLogico f t bl'.nombreBlock = rutaBlockLogico f t bl.nombreBlock)
    {c c' : Bytes} (hc : s₀.disco.physicalBlocks bl.bloqueFisicoAsociado = some c)
    (hc' : s₀.disco.physicalBlocks bl'.bloqueFisicoAsociado = some c') : c' = c := by
  have hlink := hbls bl' hbl'
  rw [hruta, hbls bl hbl, Option.some_inj] at hlink
  rw [← hlink, hc] at hc'
  exact (Option.some.inj hc').symm

/-- A block whose hash the index has for another block is linked to that one. -/
theorem avance_reasignar (h : Consistente md5 sb s₀)
    (hbls : ∀ bl ∈ bls, s₀.disco.links (rutaBlockLogico f t bl.nombreBlock) =
      some bl.bloqueFisicoAsociado) (ha : Avance md5 s₀ f t bls s) {bl : BlockLogico}
    (hbl : bl ∈ bls) {c₀ : Bytes}
    (hc₀ : s₀.disco.physicalBlocks bl.bloqueFisicoAsociado = some c₀) {b : String}
    (hget : configGet s.hashIndexConfig (hashContenido md5 c₀) = some b) :
    let p := reasignarBloqueLogico s (rutaBlockLogico f t bl.nombreBlock) bl b
      bl.bloqueFisicoAsociado
    Avance md5 s₀ f t bls p.1 ∧ Listo md5 s₀ f t p.1 bl ∧
      ∀ bl' ∈ bls, Listo md5 s₀ f t s bl' → Listo md5 s₀ f t p.1 bl' := by
  intro p
  obtain ⟨c, hc, hhash⟩ := ha.indice h hget
  obtain ⟨bfs, bitmap, hp⟩ : ∃ bfs bitmap, p.1 =
      { s with
        listaBloquesFisicos := bfs
        bitmap := bitmap
        disco := cambiarEnlaces s.disco
          (Function.update s.disco.links (rutaBlockLogico f t bl.nombreBlock) (some b)) } := by
    refine reasignar_enlaza ?_ ?_ bl bl.bloqueFisicoAsociado
    · rw [ha.archivos, hc]
      rfl
    · rw [ha.carpetas]
      exact h.carpetas _ _ (hbls bl hbl)
  have hdisco : p.1.disco = cambiarEnlaces s.disco
      (Function.update s.disco.links (rutaBlockLogico f t bl.nombreBlock) (some b))  := by
    rw [hp]
  have hlista : p.1.listaFiles = s.listaFiles := by rw [hp]
  have hindice : p.1.hashIndexConfig = s.hashIndexConfig := by rw [hp]
  have hself : p.1.disco.links (rutaBlockLogico f t bl.nombreBlock) = some b := by
    rw [hdisco]
    exact Function.update_self ..
  have hother : ∀ r, r ≠ rutaBlockLogico f t bl.nombreBlock →
      p.1.disco.links r = s.disco.links r := by
    intro r hr
    rw [hdisco]
    exact Function.update_of_ne hr ..
  refine ⟨⟨?_, ?_, hlista.trans ha.lista, ?_, ?_, ?_, ?_⟩, ?_, ?_⟩
  · rw [hdisco]
    exact ha.archivos
  · rw [hdisco]
    exact ha.carpetas
  · intro r hr
    rw [hother r (hr bl hbl)]
    exact ha.otros r hr
  · rw [hindice]
    exact ha.conserva
  · rw [hindice]
    exact ha.origen
  · intro bl' hbl' c' hc'
    rw [hindice]
    by_cases hruta : rutaBlockLogico f t bl'.nombreBlock = rutaBlockLogico f t bl.nombreBlock
    · obtain rfl := contenido_of_ruta hbls hbl hbl' hruta hc₀ hc'
      rw [hruta]
      exact ⟨b, c, hself, hc, hhash, Or.inr hget⟩
    · rw [hother _ hruta]
      exact ha.caminos bl' hbl' c' hc'
  · intro c' hc'
    obtain rfl := Option.some.inj (hc₀.symm.trans hc')
    rw [hindice]
    exact ⟨b, hself, hget⟩
  · intro bl' hbl' hlisto c' hc'
    rw [hindice]
    by_cases hruta : rutaBlockLogico f t bl'.nombreBlock = rutaBlockLogico f t bl.nombreBlock
    · obtain rfl := contenido_of_ruta hbls hbl hbl' hruta hc₀ hc'
      rw [hruta]
      exact ⟨b, hself, hget⟩
    · rw [hother _ hruta]
      exact hlisto c' hc'

/-- A processed block is linked where the index says, and the others stay so. -/
theorem procesarBloqueCommit_avance (h : Consistente md5 sb s₀)
    (hbls : ∀ bl ∈ bls, s₀.disco.links (rutaBlockLogico f t bl.nombreBlock) =
      some bl.bloqueFisicoAsociado) (ha : Avance md5 s₀ f t bls s) {bl : BlockLogico}
    (hbl : bl ∈ bls) :
    ∃ s' bl', procesarBloqueCommit md5 f t s bl = .ok (s', bl') ∧
      bl'.nombreBlock = bl.nombreBlock ∧ Avance md5 s₀ f t bls s' ∧ Listo md5 s₀ f t s' bl ∧
      ∀ bl₂ ∈ bls, Listo md5 s₀ f t s bl₂ → Listo md5 s₀ f t s' bl₂ := by
  obtain ⟨c₀, hc₀⟩ := Option.isSome_iff_exists.mp (h.archivos _ _ (hbls bl hbl))
  obtain ⟨x, c, hlink, hc, hhash, hx⟩ := ha.caminos bl hbl c₀ hc₀
  have hcontenido : s.disco.getContenido (rutaBlockLogico f t bl.nombreBlock) = some c := by
    rw [Disco.getContenido, hlink, Option.bind_some, ha.archivos, hc]
  unfold procesarBloqueCommit
  simp only [hcontenido, hhash]
  cases hget : configGet s.hashIndexConfig (hashContenido md5 c₀) with
  | none =>
    obtain ⟨ha', hlisto, hkeep⟩ := avance_agregarHashNuevo ha hbl hc₀ hget
    exact ⟨_, bl, rfl, rfl, ha', hlisto, fun bl₂ _ => hkeep bl₂⟩
  | some b =>
    by_cases hb : b = bl.bloqueFisicoAsociado
    · refine ⟨s, bl, if_pos hb, rfl, ha, ?_, fun _ _ hlisto => hlisto⟩
      intro c' hc'
      obtain rfl := Option.some.inj (hc₀.symm.trans hc')
      refine ⟨b, ?_, hget⟩
      rcases hx with rfl | hx
      · rw [hb]
        exact hlink
      · rw [hlink, ← hx, hget]
    · obtain ⟨ha', hlisto, hkeep⟩ := avance_reasignar h hbls ha hbl hc₀ hget
      exact ⟨_, _, if_neg hb, rfl, ha', hlisto, hkeep⟩

theorem procesarBloques_avance (h : Consistente md5 sb s₀)
    (hbls : ∀ bl ∈ bls, s₀.disco.links (rutaBlockLogico f t bl.nombreBlock) =
      some bl.bloqueFisicoAsociado) {resto : List BlockLogico} (hresto : ∀ bl ∈ resto, bl ∈ bls)
    (ha : Avance md5 s₀ f t bls s) :
    ∃ s' resto', procesarBloques md5 f t s resto = .ok (s', resto') ∧
      resto'.map BlockLogico.nombreBlock = resto.map BlockLogico.nombreBlock ∧
      Avance md5 s₀ f t bls s' ∧ (∀ bl ∈ resto, Listo md5 s₀ f t s' bl) ∧
      ∀ bl ∈ bls, Listo md5 s₀ f t s bl → Listo md5 s₀ f t s' bl := by
  induction resto generalizing s with
  | nil => exact ⟨s, [], rfl, rfl, ha, fun _ hbl => absurd hbl List.not_mem_nil, fun _ _ hl => hl⟩
  | cons bl resto ih =>
    obtain ⟨s₁, bl₁, hop₁, hname₁, ha₁, hlisto₁, hkeep₁⟩ :=
      procesarBloqueCommit_avance h hbls ha (hresto bl (List.mem_cons_self ..))
    obtain ⟨s₂, resto₂, hop₂, hname₂, ha₂, hlisto₂, hkeep₂⟩ :=
      ih (fun bl' hbl' => hresto bl' (List.mem_cons_of_mem _ hbl')) ha₁
    refine ⟨s₂, bl₁ :: resto₂, ?_, ?_, ha₂, ?_, ?_⟩
    · simp only [procesarBloques, hop₁, hop₂]
    · rw [List.map_cons, List.map_cons, hname₁, hname₂]
    · intro bl' hbl'
      rcases List.mem_cons.mp hbl' with rfl | hbl'
      · exact hkeep₂ bl' (hresto bl' (List.mem_cons_self ..)) hlisto₁
      · exact hlisto₂ bl' hbl'
    · exact fun bl' hbl' hl => hkeep₂ bl' hbl' (hkeep₁ bl' hbl' hl)

end Recorrido

section Lecturas

/-- Blocks of the Tag that agree up to their first NUL, with each other or with
the block the index has for their hash, agree in whole. -/
def PrefijoDecide (md5 : Bytes → String) (s : Storage) (f t : String) : Prop :=
  ∀ tag, buscarTag s f t = some tag → tag.metadata.estado ≠ .commited →
    ∀ bl ∈ tag.listaBlockLogicos, ∀ c,
      s.disco.physicalBlocks bl.bloqueFisicoAsociado = some c →
      (∀ b, configGet s.hashIndexConfig (hashContenido md5 c) = some b →
        s.disco.physicalBlocks b = some c) ∧
      ∀ bl' ∈ tag.listaBlockLogicos, ∀ c',
        s.disco.physicalBlocks bl'.bloqueFisicoAsociado = some c' → cString c' = cString c → c' = c

/-- The strings COMMIT hashes have different hashes. -/
def SinColisiones (md5 : Bytes → String) (s : Storage) : Prop :=
  Set.InjOn md5 {m | ∃ b c, s.disco.physicalBlocks b = some c ∧ m = cString c ++ [0]}

theorem cString_of_hash (hmd5 : SinColisiones md5 s) {b b' : String} {c c' : Bytes}
    (hc : s.disco.physicalBlocks b = some c) (hc' : s.disco.physicalBlocks b' = some c')
    (hhash : hashContenido md5 c = hashContenido md5 c') : cString c = cString c' :=
  List.append_cancel_right (hmd5 ⟨b, c, hc, rfl⟩ ⟨b', c', hc', rfl⟩ hhash)

/-- The contents behind the Tag's links after the blocks have been processed. -/
theorem getContenido_procesado_iff (h : Consistente md5 sb s) (hmd5 : SinColisiones md5 s)
    {tag : Tag} (htag : buscarTag s f t = some tag) (habierto : tag.metadata.estado ≠ .commited)
    (ha : Avance md5 s f t tag.listaBlockLogicos s')
    (hlisto : ∀ bl ∈ tag.listaBlockLogicos, Listo md5 s f t s' bl) :
    (∀ bl ∈ tag.listaBlockLogicos, s'.disco.getContenido (rutaBlockLogico f t bl.nombreBlock) =
        s.disco.getContenido (rutaBlockLogico f t bl.nombreBlock)) ↔ PrefijoDecide md5 s f t := by
  have hbls := h.enlaces f t tag htag
  have hantes : ∀ bl ∈ tag.listaBlockLogicos, s.disco.getContenido
      (rutaBlockLogico f t bl.nombreBlock) = s.disco.physicalBlocks bl.bloqueFisicoAsociado := by
    intro bl hbl
    rw [Disco.getContenido, hbls bl hbl, Option.bind_some]
  have hdespues : ∀ bl ∈ tag.listaBlockLogicos, ∀ c,
      s.disco.physicalBlocks bl.bloqueFisicoAsociado = some c →
      ∃ b, configGet s'.hashIndexConfig (hashContenido md5 c) = some b ∧
        s'.disco.getContenido (rutaBlockLogico f t bl.nombreBlock) = s.disco.physicalBlocks b := by
    intro bl hbl c hc
    obtain ⟨b, hlink, hget⟩ := hlisto bl hbl c hc
    exact ⟨b, hget, by rw [Disco.getContenido, hlink, Option.bind_some, ha.archivos]⟩
  constructor
  · intro higuales tag' htag' _ bl hbl c hc
    obtain rfl := Option.some.inj (htag.symm.trans htag')
    obtain ⟨b, hget, hcontenido⟩ := hdespues bl hbl c hc
    have hb : s.disco.physicalBlocks b = some c := by
      rw [← hcontenido, higuales bl hbl, hantes bl hbl, hc]
    constructor
    · intro b₀ hget₀
      obtain rfl := Option.some.inj (hget.symm.trans (ha.conserva _ _ hget₀))
      exact hb
    · intro bl' hbl' c' hc' hprefijo
      obtain ⟨b', hget', hcontenido'⟩ := hdespues bl' hbl' c' hc'
      have hhash : hashContenido md5 c' = hashContenido md5 c := by
        rw [hashContenido, hprefijo, hashContenido]
      rw [hhash, hget] at hget'
      obtain rfl := Option.some.inj hget'
      rw [higuales bl' hbl', hantes bl' hbl', hc', hb] at hcontenido'
      exact Option.some.inj hcontenido'
  · intro hprefijo bl hbl
    obtain ⟨c, hc⟩ := Option.isSome_iff_exists.mp (h.archivos _ _ (hbls bl hbl))
    obtain ⟨b, hget, hcontenido⟩ := hdespues bl hbl c hc
    obtain ⟨hindice, hlista⟩ := hprefijo tag htag habierto bl hbl c hc
    rw [hcontenido, hantes bl hbl, hc]
    rcases ha.origen _ b hget with hold | ⟨bl', hbl', rfl, c', hc', hhash⟩
    · exact hindice b hold
    · rw [hc', hlista bl' hbl' c' hc' (cString_of_hash hmd5 hc' hc hhash)]

theorem contenidoDe_eq_nombres (s : Storage) (f t : String) (n : ℕ) :
    contenidoDe s f t n = ((buscarTag s f t).bind fun tag =>
      (tag.listaBlockLogicos.map BlockLogico.nombreBlock)[n]?).bind fun nombre =>
        s.disco.getContenido (rutaBlockLogico f t nombre) := by
  unfold contenidoDe enlaceDe
  cases buscarTag s f t with
  | none => rfl
  | some tag =>
    rw [Option.bind_some, Option.bind_some, List.getElem?_map]
    cases tag.listaBlockLogicos[n]? with
    | none => rfl
    | some bl => rfl

theorem storageReadBlock_guardarMetadata (sb : Superbloque) (s : Storage)
    (f t f' t' : String) (n : ℤ) :
    storageReadBlock sb (guardarMetadata s f t) f' t' n = storageReadBlock sb s f' t' n := by
  obtain ⟨mc, hmc⟩ := guardarMetadata_eq s f t
  rw [hmc]
  rfl

/-- COMMIT leaves the contents behind the links of the other Tags. -/
theorem Avance.contenidoDe_otro {bls : List BlockLogico} (ha : Avance md5 s f t bls s')
    (bls' : List BlockLogico) {f' t' : String} (hne : rutaTag f' t' ≠ rutaTag f t) (n : ℕ) :
    contenidoDe (modificarTag s' f t (commitear bls')) f' t' n = contenidoDe s f' t' n := by
  have hbuscar : buscarTag (modificarTag s' f t (commitear bls')) f' t' = buscarTag s f' t' :=
    (buscarTag_modificarTag_ne s' (nameTag_commitear bls') hne).trans
      (buscarTag_congr ha.lista f' t')
  have hdisco : (modificarTag s' f t (commitear bls')).disco = s'.disco := rfl
  rw [contenidoDe_eq_nombres, contenidoDe_eq_nombres, hbuscar, hdisco]
  congr 1
  funext nombre
  rw [Disco.getContenido, Disco.getContenido, ha.archivos,
    ha.otros _ fun bl _ => rutaBlockLogico_ne hne _ _]

/-- The names COMMIT leaves in the Tag are the old ones, so what is read of them
changes only with the contents behind their links. -/
theorem contenidoDe_commitear_iff {tag : Tag} (htag : buscarTag s f t = some tag)
    (hlista : s'.listaFiles = s.listaFiles) {bls : List BlockLogico}
    (hnombres : bls.map BlockLogico.nombreBlock =
      tag.listaBlockLogicos.map BlockLogico.nombreBlock) :
    (∀ n, contenidoDe (modificarTag s' f t (commitear bls)) f t n = contenidoDe s f t n) ↔
      ∀ bl ∈ tag.listaBlockLogicos, s'.disco.getContenido (rutaBlockLogico f t bl.nombreBlock) =
        s.disco.getContenido (rutaBlockLogico f t bl.nombreBlock) := by
  have hself : buscarTag (modificarTag s' f t (commitear bls)) f t =
      some (commitear bls tag) := by
    rw [buscarTag_modificarTag_self s' (nameTag_commitear bls), buscarTag_congr hlista, htag]
    rfl
  have hdisco : (modificarTag s' f t (commitear bls)).disco = s'.disco := rfl
  simp only [contenidoDe_eq_nombres, hself, htag, Option.bind_some, commitear, hnombres, hdisco]
  simp only [List.getElem?_map]
  constructor
  · intro hn bl hbl
    obtain ⟨n, hn'⟩ := List.mem_iff_getElem?.mp hbl
    simpa [hn'] using hn n
  · intro hbl n
    cases hn : tag.listaBlockLogicos[n]? with
    | none => rfl
    | some bl => simpa using hbl bl (List.mem_of_getElem? hn)

/-- What READ_BLOCK answers after a COMMIT, from the contents behind the Tag's links. -/
theorem lecturas_commit_iff (h : Consistente md5 sb s) {tag : Tag}
    (htag : buscarTag s f t = some tag) (ha : Avance md5 s f t tag.listaBlockLogicos s')
    {bls : List BlockLogico} (hnombres : bls.map BlockLogico.nombreBlock =
      tag.listaBlockLogicos.map BlockLogico.nombreBlock) :
    (∀ f' t' n, storageReadBlock sb
        (guardarMetadata (modificarTag s' f t (commitear bls)) f t) f' t' n =
          storageReadBlock sb s f' t' n) ↔
      ∀ bl ∈ tag.listaBlockLogicos, s'.disco.getContenido (rutaBlockLogico f t bl.nombreBlock) =
        s.disco.getContenido (rutaBlockLogico f t bl.nombreBlock) := by
  have hlargos : ∀ r c, s.disco.getContenido r = some c → c.length = sb.blockSize := by
    intro r c hc
    obtain ⟨b, _, hb⟩ := Option.bind_eq_some_iff.mp hc
    exact h.largos b c hb
  have hlargos' : ∀ r c, (modificarTag s' f t (commitear bls)).disco.getContenido r = some c →
      c.length = sb.blockSize := by
    intro r c hc
    obtain ⟨b, _, hb⟩ := Option.bind_eq_some_iff.mp hc
    refine h.largos b c ?_
    rw [← ha.archivos]
    exact hb
  simp only [storageReadBlock_guardarMetadata, storageReadBlock_eq_iff_of_length hlargos' hlargos]
  rw [← contenidoDe_commitear_iff htag ha.lista hnombres]
  constructor
  · exact fun hleer => hleer f t
  · intro higuales f' t'
    rcases eq_or_ne (rutaTag f' t') (rutaTag f t) with heq | hne
    · obtain ⟨rfl, rfl⟩ := Prod.mk.inj heq
      exact higuales
    · exact ha.contenidoDe_otro bls hne

/-- From a consistent state COMMIT returns, and leaves what READ_BLOCK answers
unchanged just when the Tag's blocks are told apart by what comes before their
first NUL. -/
theorem commit_conserva_iff (h : Consistente md5 sb s) (hmd5 : SinColisiones md5 s)
    (f t : String) :
    (∃ s' c, operacionCommitTag md5 s f t = .ok (s', c) ∧
        ∀ f' t' n, storageReadBlock sb s' f' t' n = storageReadBlock sb s f' t' n) ↔
      PrefijoDecide md5 s f t := by
  unfold operacionCommitTag
  cases htag : buscarTag s f t with
  | none =>
    refine iff_of_true ⟨s, -1, rfl, fun _ _ _ => rfl⟩ ?_
    exact fun tag htag' => by simp [htag] at htag'
  | some tag =>
    by_cases hestado : tag.metadata.estado = .commited
    · simp only [if_pos hestado]
      refine iff_of_true ⟨s, 1, rfl, fun _ _ _ => rfl⟩ ?_
      intro tag' htag' habierto
      obtain rfl := Option.some.inj (htag.symm.trans htag')
      exact absurd hestado habierto
    · have hbls := h.enlaces f t tag htag
      obtain ⟨s', bls, hop, hnombres, ha, hlisto, _⟩ := procesarBloques_avance h hbls
        (fun _ hbl => hbl) (avance_refl hbls)
      simp only [if_neg hestado, hop]
      rw [← getContenido_procesado_iff h hmd5 htag hestado ha hlisto,
        ← lecturas_commit_iff h htag ha hnombres]
      constructor
      · rintro ⟨s₁, c, hs₁, hleer⟩
        obtain ⟨rfl, -⟩ := Prod.mk.inj (Except.ok.inj hs₁)
        exact hleer
      · exact fun hleer => ⟨_, 0, rfl, hleer⟩

end Lecturas

section Ejemplo

def tagRepetido : Tag :=
  ⟨"b", ⟨4, ["1", "2"], .workInProgress⟩,
    [⟨"000000.dat", "block0001"⟩, ⟨"000001.dat", "block0002"⟩]⟩

/-- Two blocks of a Tag that begin with a NUL and differ behind it. -/
def estadoRepetido : Storage where
  listaFiles := [⟨"a", [tagRepetido]⟩]
  listaBloquesFisicos := [⟨"block0000", some [48, 48], 0⟩, ⟨"block0001", some [0, 1], 1⟩,
    ⟨"block0002", some [0, 2], 1⟩, ⟨"block0003", some [0, 0], 0⟩]
  bitmap := [true, true, true, false, false, false, false, false]
  hashIndexConfig := []
  disco := {
    physicalBlocks := fun b =>
      if b = "block0000" then some [48, 48] else if b = "block0001" then some [0, 1]
      else if b = "block0002" then some [0, 2] else if b = "block0003" then some [0, 0] else none
    tagDirs := fun rt => rt = ("a", "b")
    links := fun r =>
      if r = ("a", "b", "000000.dat") then some "block0001"
      else if r = ("a", "b", "000001.dat") then some "block0002" else none
    metadataConfig := fun rt => if rt = ("a", "b") then
      some [("TAMAÑO", "4"), ("BLOCKS", "[1,2]"), ("ESTADO", "WORK_IN_PROGRESS")] else none
    blocksHashIndex := [] }

theorem consistente_estadoRepetido :
    Consistente hashLegible superbloqueChico estadoRepetido where
  enlaces := by
    intro f t tag htag
    obtain ⟨file, hfile, rfl, hmem⟩ := mem_of_buscarTag htag
    obtain rfl := List.mem_singleton.mp hfile
    obtain rfl := List.mem_singleton.mp hmem
    obtain rfl := nameTag_of_buscarTag htag
    decide
  indice := fun h b hget => by simp [estadoRepetido, configGet, first] at hget
  archivos := by
    intro r b hr
    simp only [estadoRepetido] at hr
    split_ifs at hr
    · obtain rfl := Option.some.inj hr
      decide
    · obtain rfl := Option.some.inj hr
      decide
  largos := by
    intro b c hc
    simp only [estadoRepetido] at hc
    split_ifs at hc
    all_goals
      obtain rfl := Option.some.inj hc
      rfl
  carpetas := by
    intro r b hr
    simp only [estadoRepetido] at hr
    split_ifs at hr with h₁ h₂
    · subst h₁
      decide
    · subst h₂
      decide

theorem sinColisiones_estadoRepetido : SinColisiones hashLegible estadoRepetido := by
  have hmensajes : ∀ m ∈ {m | ∃ b c, estadoRepetido.disco.physicalBlocks b = some c ∧
      m = cString c ++ [0]}, m = [48, 48, 0] ∨ m = [0] := by
    rintro m ⟨b, c, hc, rfl⟩
    simp only [estadoRepetido] at hc
    split_ifs at hc
    all_goals
      obtain rfl := Option.some.inj hc
      decide
  intro m hm m' hm' hhash
  rcases hmensajes m hm with rfl | rfl
  · rcases hmensajes m' hm' with rfl | rfl
    · rfl
    · exact absurd hhash (by decide)
  · rcases hmensajes m' hm' with rfl | rfl
    · exact absurd hhash (by decide)
    · rfl

theorem commit_conserva_iff_repetido :
    (∃ s' c, operacionCommitTag hashLegible estadoRepetido "a" "b" = .ok (s', c) ∧
        ∀ f' t' n, storageReadBlock superbloqueChico s' f' t' n =
          storageReadBlock superbloqueChico estadoRepetido f' t' n) ↔
      PrefijoDecide hashLegible estadoRepetido "a" "b" :=
  commit_conserva_iff consistente_estadoRepetido sinColisiones_estadoRepetido "a" "b"

/-- The second block is given the bytes of the first. -/
theorem not_commit_conserva : ¬ ∀ md5 sb s f t, Consistente md5 sb s → SinColisiones md5 s →
    ∃ s' c, operacionCommitTag md5 s f t = .ok (s', c) ∧
      ∀ f' t' n, storageReadBlock sb s' f' t' n = storageReadBlock sb s f' t' n := by
  intro h
  obtain ⟨s', c, hop, hleer⟩ := h _ _ _ "a" "b" consistente_estadoRepetido
    sinColisiones_estadoRepetido
  have hcommit : (operacionCommitTag hashLegible estadoRepetido "a" "b").map
      (fun p => storageReadBlock superbloqueChico p.1 "a" "b" 1) = .ok (.bloque [0, 1]) := by
    decide
  rw [hop] at hcommit
  have hleido : storageReadBlock superbloqueChico estadoRepetido "a" "b" 1 = .bloque [0, 1] :=
    (hleer "a" "b" 1).symm.trans (Except.ok.inj hcommit)
  exact absurd hleido (by decide)

end Ejemplo

end MasterOfFiles.CommitDeduplication
