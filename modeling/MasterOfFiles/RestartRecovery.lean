import MasterOfFiles.BlockTable
import MasterOfFiles.LinkAgreement
import MasterOfFiles.NameUniqueness
import MasterOfFiles.ReferenceCounts
import MasterOfFiles.StorageRestart
import MasterOfFiles.StoredMetadata

/-!
What a Storage that stopped has in memory once it is started again without
FRESH_START. In the states requests lead to the index only ever names block0000,
so the start ends exactly when the index has the hash of every block linked, and
each logical block is then associated with block0000.
-/
namespace MasterOfFiles.RestartRecovery

open KeyedLists ByteBuffers ConfigText BlockNames StorageState StorageFiles StorageOperations
open PartialRuns TagLookups BlockZero RequestEffects ReachableStates BlockTable StorageRestart
open LinkAgreement NameUniqueness ReferenceCounts StoredMetadata

variable {md5 : Bytes → String} {sb : Superbloque} {s s' : Storage} {f t n : String}

section Arranque

/-- The index has the hash of what the logical block's link reads. -/
def EnIndice (md5 : Bytes → String) (s : Storage) (f t n : String) : Prop :=
  ∃ c, s.disco.getContenido (rutaBlockLogico f t n) = some c ∧
    (configGet s.disco.blocksHashIndex (hashContenido md5 c)).isSome

/-- The state while the directories are read: only counts of block0000 were added. -/
def Levantando (sb : Superbloque) (s s₁ : Storage) : Prop :=
  ∃ k, s₁ = sumarAsociados (arranque sb s) 0 k

theorem Levantando.sumar {s₁ : Storage} (h : Levantando sb s s₁) (k : ℤ) :
    Levantando sb s (sumarAsociados s₁ 0 k) := by
  obtain ⟨j, rfl⟩ := h
  exact ⟨j + k, sumarAsociados_sumarAsociados _ 0 j k⟩

theorem isSome_configGet_create (c : Config) (k : String) :
    (configGet (configCreate c) k).isSome = (configGet c k).isSome := by
  rw [configGet_create, Bool.eq_iff_iff]
  unfold configGet
  rw [Option.isSome_map, Option.isSome_map, Option.isSome_iff_ne_none, Option.isSome_iff_ne_none,
    ne_eq, ne_eq, first_eq_none_iff, first_eq_none_iff, List.map_reverse, List.mem_reverse]

theorem tabla_arranque (sb : Superbloque) (s : Storage) : TablaCompleta sb (arranque sb s) := by
  unfold TablaCompleta tabla arranque iniciarBloquesFisicosExistentes
  rw [List.map_map]
  rfl

theorem Levantando.tabla {s₁ : Storage} (h : Levantando sb s s₁) : TablaCompleta sb s₁ := by
  obtain ⟨k, rfl⟩ := h
  exact (tabla_sumarAsociados _ 0 k).trans (tabla_arranque sb s)

theorem buscarBfAsociado_levantando {s₁ : Storage} (h : Levantando sb s s₁)
    (hcero : ∀ p ∈ s.disco.blocksHashIndex, p.2 = bloqueFisicoInicial) (hash : String) :
    buscarBfAsociado s₁ hash =
      if (configGet s.disco.blocksHashIndex hash).isSome then some 0 else none := by
  have hindex : buscarIndexBlockFisico s₁ bloqueFisicoInicial = some 0 := by
    rw [← nombreBloqueFisico_zero]
    exact buscarIndex_of_tabla h.tabla (cantBlock_pos sb)
  obtain ⟨k, rfl⟩ := h
  unfold buscarBfAsociado
  change (configGet (configCreate s.disco.blocksHashIndex) hash).bind _ = _
  rw [← isSome_configGet_create]
  cases hget : configGet (configCreate s.disco.blocksHashIndex) hash with
  | none => rfl
  | some b =>
    rw [configGet_create] at hget
    have hb : b = bloqueFisicoInicial :=
      hcero _ (List.mem_reverse.mp (mem_of_configGet hget))
    rw [hb]
    exact hindex

theorem levantarBlock_eq_ok {s₁ : Storage} (h : Levantando sb s s₁)
    (hcero : ∀ p ∈ s.disco.blocksHashIndex, p.2 = bloqueFisicoInicial)
    (hindice : EnIndice md5 s f t n) :
    levantarBlock md5 f t s₁ n = .ok (sumarAsociados s₁ 0 1, ⟨n, bloqueFisicoInicial⟩) := by
  obtain ⟨c, hc, hsome⟩ := hindice
  have hbuscar := buscarBfAsociado_levantando h hcero (hashContenido md5 c)
  rw [if_pos hsome] at hbuscar
  have hpath : (s₁.listaBloquesFisicos[0]?.map BlockFisico.pathBlock).getD bloqueFisicoInicial =
      bloqueFisicoInicial := by
    cases hbf : s₁.listaBloquesFisicos[0]? with
    | none => rfl
    | some bf =>
      rw [Option.map_some, Option.getD_some, pathBlock_of_tabla h.tabla hbf,
        nombreBloqueFisico_zero]
  have hc₁ : s₁.disco.getContenido (rutaBlockLogico f t n) = some c := by
    obtain ⟨k, rfl⟩ := h
    exact hc
  unfold levantarBlock
  simp only [hc₁, hbuscar, hpath]

theorem enIndice_of_levantarBlock {s₁ : Storage} (h : Levantando sb s s₁)
    (hcero : ∀ p ∈ s.disco.blocksHashIndex, p.2 = bloqueFisicoInicial)
    {p : Storage × BlockLogico} (hop : levantarBlock md5 f t s₁ n = .ok p) :
    EnIndice md5 s f t n ∧ Levantando sb s p.1 := by
  have hindice : EnIndice md5 s f t n := by
    unfold levantarBlock at hop
    split at hop
    · simp at hop
    · next c hc =>
      have hbuscar := buscarBfAsociado_levantando h hcero (hashContenido md5 c)
      obtain ⟨k, rfl⟩ := h
      refine ⟨c, hc, ?_⟩
      by_contra hno
      rw [if_neg hno] at hbuscar
      simp [hbuscar] at hop
  refine ⟨hindice, ?_⟩
  rw [levantarBlock_eq_ok h hcero hindice] at hop
  rw [← Except.ok.inj hop]
  exact h.sumar 1

theorem foldl_sumarAsociados {α : Type*} (k : α → ℕ) (xs : List α) (s : Storage) :
    xs.foldl (fun s x => sumarAsociados s 0 (k x)) s = sumarAsociados s 0 (xs.map k).sum := by
  induction xs generalizing s with
  | nil => exact (sumarAsociados_zero s 0).symm
  | cons x xs ih =>
    rw [List.foldl_cons, ih, sumarAsociados_sumarAsociados, List.map_cons, List.sum_cons,
      Nat.cast_add]

variable (listado : Listado s)

def tagLevantado (f t : String) : Tag :=
  ⟨t, crearMetadata ((s.disco.metadataConfig (rutaTag f t)).getD []),
    (listado.bloques f t).map fun n => ⟨n, bloqueFisicoInicial⟩⟩

def fileLevantado (f : String) : File := ⟨f, (listado.tags f).map (tagLevantado listado f)⟩

def bloquesTag (f t : String) : ℕ := (listado.bloques f t).length

def bloquesFile (f : String) : ℕ := ((listado.tags f).map (bloquesTag listado f)).sum

/-- What the start leaves when it ends. -/
def levantado (sb : Superbloque) : Storage :=
  let s₁ := { sumarAsociados (arranque sb s) 0 (listado.files.map (bloquesFile listado)).sum with
    listaFiles := listado.files.map (fileLevantado listado) }
  { s₁ with bitmap := sincronizarBitmap s₁ }

theorem levantarTag_eq_ok {s₁ : Storage} (h : Levantando sb s s₁)
    (hcero : ∀ p ∈ s.disco.blocksHashIndex, p.2 = bloqueFisicoInicial)
    (hindice : ∀ n ∈ listado.bloques f t, EnIndice md5 s f t n) :
    levantarTag md5 listado f s₁ t =
      .ok (sumarAsociados s₁ 0 (bloquesTag listado f t), tagLevantado listado f t) := by
  have hcollect : collect (levantarBlock md5 f t) s₁ (listado.bloques f t) =
      .ok ((listado.bloques f t).foldl (fun s _ => sumarAsociados s 0 (1 : ℕ)) s₁,
        (listado.bloques f t).map fun n => ⟨n, bloqueFisicoInicial⟩) := by
    refine collect_eq_ok (I := Levantando sb s) (fun s₂ n hn h₂ => ?_) h
    exact ⟨levantarBlock_eq_ok h₂ hcero (hindice n hn), h₂.sumar 1⟩
  have huno : ((listado.bloques f t).map fun _ => 1).sum = bloquesTag listado f t := by
    simp [bloquesTag]
  rw [foldl_sumarAsociados, huno] at hcollect
  have hdisco : s₁.disco = s.disco := by
    obtain ⟨k, rfl⟩ := h
    rfl
  unfold levantarTag
  simp only [hcollect, hdisco]
  rfl

theorem enIndice_of_levantarTag {s₁ : Storage} (h : Levantando sb s s₁)
    (hcero : ∀ p ∈ s.disco.blocksHashIndex, p.2 = bloqueFisicoInicial) {p : Storage × Tag}
    (hop : levantarTag md5 listado f s₁ t = .ok p) :
    (∀ n ∈ listado.bloques f t, EnIndice md5 s f t n) ∧ Levantando sb s p.1 := by
  unfold levantarTag at hop
  split at hop
  · simp at hop
  · next s₂ bloques hcollect =>
    obtain rfl := Except.ok.inj hop
    exact forall_of_collect (I := Levantando sb s)
      (fun s₂ n q h₂ hq => enIndice_of_levantarBlock h₂ hcero hq) h hcollect

theorem levantarFile_eq_ok {s₁ : Storage} (h : Levantando sb s s₁)
    (hcero : ∀ p ∈ s.disco.blocksHashIndex, p.2 = bloqueFisicoInicial)
    (hindice : ∀ t ∈ listado.tags f, ∀ n ∈ listado.bloques f t, EnIndice md5 s f t n) :
    levantarFile md5 listado s₁ f =
      .ok (sumarAsociados s₁ 0 (bloquesFile listado f), fileLevantado listado f) := by
  have hcollect : collect (levantarTag md5 listado f) s₁ (listado.tags f) =
      .ok ((listado.tags f).foldl (fun s t => sumarAsociados s 0 (bloquesTag listado f t)) s₁,
        (listado.tags f).map (tagLevantado listado f)) := by
    refine collect_eq_ok (I := Levantando sb s) (fun s₂ t ht h₂ => ?_) h
    exact ⟨levantarTag_eq_ok listado h₂ hcero (hindice t ht), h₂.sumar _⟩
  rw [foldl_sumarAsociados] at hcollect
  unfold levantarFile
  simp only [hcollect]
  rfl

theorem enIndice_of_levantarFile {s₁ : Storage} (h : Levantando sb s s₁)
    (hcero : ∀ p ∈ s.disco.blocksHashIndex, p.2 = bloqueFisicoInicial) {p : Storage × File}
    (hop : levantarFile md5 listado s₁ f = .ok p) :
    (∀ t ∈ listado.tags f, ∀ n ∈ listado.bloques f t, EnIndice md5 s f t n) ∧
      Levantando sb s p.1 := by
  unfold levantarFile at hop
  split at hop
  · simp at hop
  · next s₂ tags hcollect =>
    obtain rfl := Except.ok.inj hop
    exact forall_of_collect (I := Levantando sb s)
      (fun s₂ t q h₂ hq => enIndice_of_levantarTag listado h₂ hcero hq) h hcollect

theorem levantando_arranque (sb : Superbloque) (s : Storage) : Levantando sb s (arranque sb s) :=
  ⟨0, (sumarAsociados_zero _ 0).symm⟩

/-- The start ends when every block linked has its hash in the index. -/
theorem reiniciar_eq_ok (hcero : ∀ p ∈ s.disco.blocksHashIndex, p.2 = bloqueFisicoInicial)
    (hindice : ∀ f ∈ listado.files, ∀ t ∈ listado.tags f, ∀ n ∈ listado.bloques f t,
      EnIndice md5 s f t n) :
    reiniciar md5 sb s listado = .ok (levantado listado sb) := by
  have hcollect : collect (levantarFile md5 listado) (arranque sb s) listado.files =
      .ok (listado.files.foldl (fun s f => sumarAsociados s 0 (bloquesFile listado f))
        (arranque sb s), listado.files.map (fileLevantado listado)) := by
    refine collect_eq_ok (I := Levantando sb s) (fun s₂ f hf h₂ => ?_) (levantando_arranque sb s)
    exact ⟨levantarFile_eq_ok listado h₂ hcero (hindice f hf), h₂.sumar _⟩
  rw [foldl_sumarAsociados] at hcollect
  unfold reiniciar freshStartFalse
  simp only [hcollect]
  rfl

/-- The start ends in no other case. -/
theorem enIndice_of_reiniciar (hcero : ∀ p ∈ s.disco.blocksHashIndex, p.2 = bloqueFisicoInicial)
    (hop : reiniciar md5 sb s listado = .ok s') :
    ∀ f ∈ listado.files, ∀ t ∈ listado.tags f, ∀ n ∈ listado.bloques f t,
      EnIndice md5 s f t n := by
  unfold reiniciar freshStartFalse at hop
  cases hcollect : collect (levantarFile md5 listado) (arranque sb s) listado.files with
  | error e => simp [hcollect] at hop
  | ok p =>
    exact (forall_of_collect (I := Levantando sb s)
      (fun s₂ f q h₂ hq => enIndice_of_levantarFile listado h₂ hcero hq)
      (levantando_arranque sb s) hcollect).1

end Arranque

section Levantado

variable (listado : Listado s)

theorem first_map_self {α : Type*} {key : α → String} {g : String → α} (hg : ∀ x, key (g x) = x)
    (k : String) (xs : List String) :
    first key k (xs.map g) = if k ∈ xs then some (g k) else none := by
  induction xs with
  | nil => rfl
  | cons x xs ih =>
    by_cases hx : x = k
    · subst hx
      simp [first, hg]
    · simp [first, hg, hx, ih, Ne.symm hx]

theorem buscarFile_levantado (sb : Superbloque) (f : String) :
    buscarFile (levantado listado sb) f =
      if f ∈ listado.files then some (fileLevantado listado f) else none := by
  refine first_map_self ?_ f listado.files
  exact fun _ => rfl

theorem buscarTag_levantado (sb : Superbloque) (f t : String) :
    buscarTag (levantado listado sb) f t =
      if f ∈ listado.files ∧ t ∈ listado.tags f then some (tagLevantado listado f t)
      else none := by
  unfold buscarTag
  rw [buscarFile_levantado]
  by_cases hf : f ∈ listado.files
  · rw [if_pos hf, Option.bind_some]
    simp only [hf, true_and]
    refine first_map_self ?_ t (listado.tags f)
    exact fun _ => rfl
  · rw [if_neg hf, if_neg fun h => hf h.1]
    rfl

theorem bloquesLogicos_levantado (sb : Superbloque) :
    bloquesLogicos (levantado listado sb) = listado.files.flatMap fun f =>
      (listado.tags f).flatMap fun t =>
        (listado.bloques f t).map fun n => ⟨n, bloqueFisicoInicial⟩ := by
  unfold bloquesLogicos
  change (listado.files.map (fileLevantado listado)).flatMap _ = _
  rw [List.flatMap_map]
  congr 1
  funext f
  exact List.flatMap_map ..

theorem asociado_levantado (sb : Superbloque) {bl : BlockLogico}
    (hbl : bl ∈ bloquesLogicos (levantado listado sb)) :
    bl.bloqueFisicoAsociado = bloqueFisicoInicial := by
  rw [bloquesLogicos_levantado] at hbl
  obtain ⟨f, _, hf⟩ := List.mem_flatMap.mp hbl
  obtain ⟨t, _, ht⟩ := List.mem_flatMap.mp hf
  obtain ⟨n, _, rfl⟩ := List.mem_map.mp ht
  rfl

theorem length_bloquesLogicos_levantado (sb : Superbloque) :
    (bloquesLogicos (levantado listado sb)).length =
      (listado.files.map (bloquesFile listado)).sum := by
  rw [bloquesLogicos_levantado]
  simp only [List.length_flatMap, List.length_map]
  rfl

theorem tabla_levantado (sb : Superbloque) : TablaCompleta sb (levantado listado sb) :=
  (levantando_arranque sb s).sumar (listado.files.map (bloquesFile listado)).sum |>.tabla

/-- Only block0000 is counted, once for each logical block there is. -/
theorem blogicoAsociados_levantado (sb : Superbloque) {k : ℕ} {bf : BlockFisico}
    (hbf : (levantado listado sb).listaBloquesFisicos[k]? = some bf) :
    bf.blogicoAsociados =
      ((bloquesLogicos (levantado listado sb)).countP
        fun bl => bl.bloqueFisicoAsociado = nombreBloqueFisico k) := by
  have hinicio : ∀ bf', (iniciarBloquesFisicosExistentes sb s.disco)[k]? = some bf' →
      bf'.blogicoAsociados = 0 := by
    intro bf' hbf'
    obtain ⟨i, _, rfl⟩ := List.mem_map.mp (List.mem_of_getElem? hbf')
    rfl
  have hsumar : ((iniciarBloquesFisicosExistentes sb s.disco).modify 0 fun bf =>
      { bf with blogicoAsociados := bf.blogicoAsociados +
        (listado.files.map (bloquesFile listado)).sum })[k]? = some bf := hbf
  rw [List.getElem?_modify] at hsumar
  obtain ⟨bf', hbf', rfl⟩ := Option.map_eq_some_iff.mp hsumar
  by_cases hk : k = 0
  · subst hk
    have htodos : (bloquesLogicos (levantado listado sb)).countP
        (fun bl => bl.bloqueFisicoAsociado = nombreBloqueFisico 0) =
          (bloquesLogicos (levantado listado sb)).length := by
      refine List.countP_eq_length.mpr fun bl hbl => ?_
      rw [decide_eq_true_eq, nombreBloqueFisico_zero]
      exact asociado_levantado listado sb hbl
    rw [htodos, length_bloquesLogicos_levantado, if_pos rfl]
    simp [hinicio bf' hbf']
  · have hninguno : (bloquesLogicos (levantado listado sb)).countP
        (fun bl => bl.bloqueFisicoAsociado = nombreBloqueFisico k) = 0 := by
      refine List.countP_eq_zero.mpr fun bl hbl => ?_
      rw [decide_eq_true_eq, asociado_levantado listado sb hbl, ← nombreBloqueFisico_zero]
      exact fun hname => hk (nombreBloqueFisico_injective hname).symm
    rw [hninguno, if_neg (Ne.symm hk)]
    exact hinicio bf' hbf'

theorem refExact_levantado (sb : Superbloque) : RefExact (levantado listado sb) := by
  intro bf hbf
  obtain ⟨k, hk⟩ := List.mem_iff_getElem?.mp hbf
  rw [pathBlock_of_tabla (tabla_levantado listado sb) hk]
  exact blogicoAsociados_levantado listado sb hk

theorem getElem?_foldl_set (g : ℕ → Bool) (bitmap : List Bool) (n k : ℕ) :
    ((List.range n).foldl (fun bitmap i => bitmap.set i (g i)) bitmap)[k]? =
      if k < n then bitmap[k]?.map fun _ => g k else bitmap[k]? := by
  induction n with
  | zero => rfl
  | succ n ih =>
    rw [List.range_succ, List.foldl_append, List.foldl_cons, List.foldl_nil]
    rcases eq_or_ne n k with rfl | hne
    · rw [List.getElem?_set_self', ih, if_neg (lt_irrefl n), if_pos (Nat.lt_succ_self n)]
      rfl
    · rw [List.getElem?_set_ne hne, ih]
      have hlt : k < n + 1 ↔ k < n := by omega
      simp only [hlt]

theorem getElem?_sincronizarBitmap {k : ℕ} {bf : BlockFisico}
    (hbf : s.listaBloquesFisicos[k]? = some bf) :
    (sincronizarBitmap s)[k]? = s.bitmap[k]?.map fun _ => decide (0 < bf.blogicoAsociados) := by
  have hset : sincronizarBitmap s = (List.range s.listaBloquesFisicos.length).foldl
      (fun bitmap i => bitmap.set i (decide (0 <
        (s.listaBloquesFisicos[i]?.map BlockFisico.blogicoAsociados).getD 0))) s.bitmap := by
    unfold sincronizarBitmap
    congr 1
    funext bitmap i
    split_ifs with hpos
    · exact (congrArg (bitmap.set i) (decide_eq_true hpos)).symm
    · exact (congrArg (bitmap.set i) (decide_eq_false hpos)).symm
  rw [hset, getElem?_foldl_set, if_pos (List.getElem?_eq_some_iff.mp hbf).1, hbf]
  rfl

/-- A bit is set when its block is associated with some logical block. -/
theorem bits_levantado (hbit : s.bitmap[0]? = some true) {k : ℕ} (hk : k < cantBlock sb) :
    (levantado listado sb).bitmap[k]? = some true ↔
      ∃ bl ∈ bloquesLogicos (levantado listado sb),
        bl.bloqueFisicoAsociado = nombreBloqueFisico k := by
  obtain ⟨bf, hbf⟩ : ∃ bf, (levantado listado sb).listaBloquesFisicos[k]? = some bf := by
    have htabla := congrArg (·[k]?) (tabla_levantado listado sb)
    simp only [tabla, List.getElem?_map, List.getElem?_range hk, Option.map_some] at htabla
    obtain ⟨bf, hbf, _⟩ := Option.map_eq_some_iff.mp htabla
    exact ⟨bf, hbf⟩
  have hsinc : (levantado listado sb).bitmap[k]? =
      s.bitmap[k]?.map fun _ => decide (0 < bf.blogicoAsociados) :=
    getElem?_sincronizarBitmap hbf
  have hpos : 0 < bf.blogicoAsociados ↔ ∃ bl ∈ bloquesLogicos (levantado listado sb),
      bl.bloqueFisicoAsociado = nombreBloqueFisico k := by
    rw [blogicoAsociados_levantado listado sb hbf, Nat.cast_pos, List.countP_pos_iff]
    simp only [decide_eq_true_eq]
  rw [hsinc, ← hpos]
  constructor
  · intro hmap
    obtain ⟨_, _, hdec⟩ := Option.map_eq_some_iff.mp hmap
    exact of_decide_eq_true hdec
  · intro hcuenta
    -- a block that is counted is block0000, and its bit exists
    obtain ⟨bl, hbl, hname⟩ := hpos.mp hcuenta
    rw [asociado_levantado listado sb hbl, ← nombreBloqueFisico_zero] at hname
    obtain rfl := nombreBloqueFisico_injective hname
    rw [hbit, Option.map_some, decide_eq_true hcuenta]

end Levantado

section Recuperacion

/-- The state `s'` of the new process has the file system of `s`. -/
structure Recuperado (sb : Superbloque) (s s' : Storage) : Prop where
  files : (s'.listaFiles.map File.nameFile).Perm (s.listaFiles.map File.nameFile)
  tags : ∀ file ∈ s.listaFiles, ∀ file' ∈ s'.listaFiles, file'.nameFile = file.nameFile →
    (file'.tags.map Tag.nameTag).Perm (file.tags.map Tag.nameTag)
  metadatos : ∀ f t, (buscarTag s' f t).map Tag.metadata = (buscarTag s f t).map Tag.metadata
  bloques : ∀ f t tag tag', buscarTag s f t = some tag → buscarTag s' f t = some tag' →
    (tag'.listaBlockLogicos.map BlockLogico.nombreBlock).Perm
      (tag.listaBlockLogicos.map BlockLogico.nombreBlock)
  enlaces : LinksAgree s'
  tabla : TablaCompleta sb s'
  conteos : RefExact s'
  bits : ∀ k < cantBlock sb, s'.bitmap[k]? = some true ↔
    ∃ bl ∈ bloquesLogicos s', bl.bloqueFisicoAsociado = nombreBloqueFisico k

/-- All hard links are to block0000, the index has the hash of its bytes if there
are any links, and the disk has the Tags, metadata and blocks of memory. -/
structure Recuperable (md5 : Bytes → String) (s : Storage) : Prop where
  enlaces : ∀ r b, s.disco.links r = some b → b = bloqueFisicoInicial
  indice : ∀ r c, (s.disco.links r).isSome → s.disco.physicalBlocks bloqueFisicoInicial = some c →
    (configGet s.disco.blocksHashIndex (hashContenido md5 c)).isSome
  nombres : NamesUnique s
  carpetas : ∀ f t, (buscarTag s f t).isSome → s.disco.tagDirs (rutaTag f t) = true
  metadatos : ∀ f t tag lineas, buscarTag s f t = some tag →
    s.disco.metadataConfig (rutaTag f t) = some lineas → Escrita lineas tag.metadata
  bloques : ∀ f t tag, buscarTag s f t = some tag →
    (tag.listaBlockLogicos.map BlockLogico.nombreBlock).Nodup ∧
      ∀ n, n ∈ tag.listaBlockLogicos.map BlockLogico.nombreBlock ↔
        (s.disco.links (rutaBlockLogico f t n)).isSome

theorem isSome_buscarTag_iff {file : File} (hfile : buscarFile s f = some file) (t : String) :
    (buscarTag s f t).isSome ↔ t ∈ file.tags.map Tag.nameTag := by
  unfold buscarTag
  rw [hfile, Option.bind_some, Option.isSome_iff_ne_none, ne_eq, first_eq_none_iff, not_not]

theorem isSome_buscarFile_iff (s : Storage) (f : String) :
    (buscarFile s f).isSome ↔ f ∈ s.listaFiles.map File.nameFile := by
  unfold buscarFile
  rw [Option.isSome_iff_ne_none, ne_eq, first_eq_none_iff, not_not]

theorem buscarFile_of_mem (h : NamesUnique s) {file : File} (hfile : file ∈ s.listaFiles) :
    buscarFile s file.nameFile = some file :=
  first_of_nodup h.1 hfile

variable (listado : Listado s)

theorem metadata_eq_iff (h : Guardado s) {lineas : Config} {rt : RutaTag}
    (hlineas : s.disco.metadataConfig rt = some lineas) {metadata : Metadata}
    (hcero : ∀ e ∈ metadata.blocksFisicosUsados, e = "0") :
    crearMetadata lineas = metadata ↔ Escrita lineas metadata := by
  have hleer : ∀ m : Metadata, (∀ e ∈ m.blocksFisicosUsados, e = "0") → Escrita lineas m →
      crearMetadata lineas = m := by
    intro m hm hescrita
    refine hescrita.crearMetadata fun e he => ?_
    rw [hm e he]
    decide
  constructor
  · rintro rfl
    obtain ⟨m, hm, hcero'⟩ := h.2.escritas rt lineas hlineas
    rw [hleer m hcero' hm]
    exact hm
  · exact hleer metadata hcero

theorem map_nameFile_levantado (sb : Superbloque) :
    (levantado listado sb).listaFiles.map File.nameFile = listado.files := by
  change (listado.files.map (fileLevantado listado)).map File.nameFile = _
  rw [List.map_map]
  exact List.map_id _

theorem map_nameTag_fileLevantado (f : String) :
    (fileLevantado listado f).tags.map Tag.nameTag = listado.tags f := by
  change ((listado.tags f).map (tagLevantado listado f)).map Tag.nameTag = _
  rw [List.map_map]
  exact List.map_id _

theorem map_nombreBlock_tagLevantado (f t : String) :
    (tagLevantado listado f t).listaBlockLogicos.map BlockLogico.nombreBlock =
      listado.bloques f t := by
  unfold tagLevantado
  rw [List.map_map]
  exact List.map_id _

theorem linksAgree_levantado_iff (sb : Superbloque) : LinksAgree (levantado listado sb) ↔
    ∀ f ∈ listado.files, ∀ t ∈ listado.tags f, ∀ n ∈ listado.bloques f t,
      s.disco.links (rutaBlockLogico f t n) = some bloqueFisicoInicial := by
  constructor
  · intro h f hf t ht n hn
    have htag := buscarTag_levantado listado sb f t
    rw [if_pos ⟨hf, ht⟩] at htag
    exact h f t _ htag ⟨n, bloqueFisicoInicial⟩ (List.mem_map.mpr ⟨n, hn, rfl⟩)
  · intro h f t tag htag bl hbl
    rw [buscarTag_levantado] at htag
    split_ifs at htag with hmem
    obtain rfl := Option.some.inj htag
    obtain ⟨n, hn, rfl⟩ := List.mem_map.mp hbl
    exact h f hmem.1 t hmem.2 n hn

theorem metadata_tagLevantado_iff (hcoh : Coherente sb s) (hg : Guardado s) {tag : Tag}
    (htag : buscarTag s f t = some tag) (ht : t ∈ listado.tags f) :
    (tagLevantado listado f t).metadata = tag.metadata ↔
      ∀ lineas, s.disco.metadataConfig (rutaTag f t) = some lineas →
        Escrita lineas tag.metadata := by
  obtain ⟨lineas, hlineas⟩ := Option.isSome_iff_exists.mp
    (hg.2.carpetas _ ((listado.mem_tags f t).mp ht))
  have hmetadata : (tagLevantado listado f t).metadata = crearMetadata lineas := by
    change crearMetadata ((s.disco.metadataConfig (rutaTag f t)).getD []) = _
    rw [hlineas, Option.getD_some]
  rw [hmetadata, metadata_eq_iff hg hlineas (hcoh.tag_cero htag).usados]
  constructor
  · intro hescrita lineas' hlineas'
    obtain rfl := Option.some.inj (hlineas.symm.trans hlineas')
    exact hescrita
  · exact fun hescrita => hescrita lineas hlineas

theorem mem_files_of_buscarTag (h : (buscarTag s f t).isSome) : f ∈ listado.files := by
  obtain ⟨tag, htag⟩ := Option.isSome_iff_exists.mp h
  obtain ⟨file, hfile, _⟩ := buscarTag_eq_some htag
  exact (listado.mem_files f).mpr (by rw [hfile]; rfl)

theorem recuperado_of_recuperable (hcoh : Coherente sb s) (hg : Guardado s) (ho : EnOrden s)
    (h : Recuperable md5 s) : Recuperado sb s (levantado listado sb) := by
  have htags : ∀ f t, t ∈ listado.tags f ↔ (buscarTag s f t).isSome := by
    intro f t
    rw [listado.mem_tags]
    exact ⟨fun hdir => ho.carpeta_visible (rutaTag f t) hdir, h.carpetas f t⟩
  refine ⟨?_, ?_, ?_, ?_, ?_, tabla_levantado listado sb, refExact_levantado listado sb,
    fun k hk => bits_levantado listado hcoh.bit_cero hk⟩
  · rw [map_nameFile_levantado]
    refine (List.perm_ext_iff_of_nodup listado.files_nodup h.nombres.1).mpr fun f => ?_
    rw [listado.mem_files, isSome_buscarFile_iff]
  · intro file hfile file' hfile' hname
    obtain ⟨f, _, rfl⟩ := List.mem_map.mp hfile'
    obtain rfl : f = file.nameFile := hname
    rw [map_nameTag_fileLevantado]
    refine (List.perm_ext_iff_of_nodup (listado.tags_nodup _) (h.nombres.2 file hfile)).mpr
      fun t => ?_
    rw [htags, isSome_buscarTag_iff (buscarFile_of_mem h.nombres hfile)]
  · intro f t
    rw [buscarTag_levantado]
    cases htag : buscarTag s f t with
    | none =>
      have hno : ¬ (f ∈ listado.files ∧ t ∈ listado.tags f) := by
        rintro ⟨_, ht⟩
        have hsome := (htags f t).mp ht
        simp [htag] at hsome
      rw [if_neg hno]
    | some tag =>
      have hsome : (buscarTag s f t).isSome := by rw [htag]; rfl
      have ht := (htags f t).mpr hsome
      rw [if_pos ⟨mem_files_of_buscarTag listado hsome, ht⟩, Option.map_some, Option.map_some,
        (metadata_tagLevantado_iff listado hcoh hg htag ht).mpr
          fun lineas => h.metadatos f t tag lineas htag]
  · intro f t tag tag' htag htag'
    rw [buscarTag_levantado] at htag'
    split_ifs at htag' with hmem
    obtain rfl := Option.some.inj htag'
    obtain ⟨hnodup, hnombres⟩ := h.bloques f t tag htag
    rw [map_nombreBlock_tagLevantado]
    refine (List.perm_ext_iff_of_nodup (listado.bloques_nodup f t) hnodup).mpr fun n => ?_
    rw [listado.mem_bloques, hnombres]
  · refine (linksAgree_levantado_iff listado sb).mpr fun f _ t _ n hn => ?_
    obtain ⟨b, hb⟩ := Option.isSome_iff_exists.mp ((listado.mem_bloques f t n).mp hn)
    rw [hb, h.enlaces _ b hb]

theorem mem_tags_of_recuperado (h : Recuperado sb s (levantado listado sb))
    (hsome : (buscarTag s f t).isSome) : t ∈ listado.tags f := by
  have hmismo := congrArg Option.isSome (h.metadatos f t)
  rw [Option.isSome_map, Option.isSome_map, hsome, buscarTag_levantado] at hmismo
  by_contra hno
  rw [if_neg fun hmem => hno hmem.2] at hmismo
  simp at hmismo

/-- A recovered Storage had every link to block0000, and its hash in the index. -/
theorem enlace_of_recuperado (hcoh : Coherente sb s)
    (hindice : ∀ f ∈ listado.files, ∀ t ∈ listado.tags f, ∀ n ∈ listado.bloques f t,
      EnIndice md5 s f t n)
    (h : Recuperado sb s (levantado listado sb)) {r : RutaBlock}
    (hr : (s.disco.links r).isSome) :
    s.disco.links r = some bloqueFisicoInicial ∧ EnIndice md5 s r.1 r.2.1 r.2.2 := by
  obtain ⟨b, hb⟩ := Option.isSome_iff_exists.mp hr
  have hvisible := hcoh.enlace_visible r b hb
  have hf := mem_files_of_buscarTag listado hvisible
  have ht := mem_tags_of_recuperado listado h hvisible
  have hn := (listado.mem_bloques r.1 r.2.1 r.2.2).mpr hr
  exact ⟨(linksAgree_levantado_iff listado sb).mp h.enlaces _ hf _ ht _ hn,
    hindice _ hf _ ht _ hn⟩

theorem recuperable_of_recuperado (hcoh : Coherente sb s) (hg : Guardado s)
    (hindice : ∀ f ∈ listado.files, ∀ t ∈ listado.tags f, ∀ n ∈ listado.bloques f t,
      EnIndice md5 s f t n)
    (h : Recuperado sb s (levantado listado sb)) : Recuperable md5 s := by
  have htags : ∀ f t, (buscarTag s f t).isSome → t ∈ listado.tags f :=
    fun _ _ hsome => mem_tags_of_recuperado listado h hsome
  have hlink : ∀ r, (s.disco.links r).isSome → s.disco.links r = some bloqueFisicoInicial ∧
      EnIndice md5 s r.1 r.2.1 r.2.2 :=
    fun _ hr => enlace_of_recuperado listado hcoh hindice h hr
  refine ⟨fun r b hb => ?_, fun r c hr hc => ?_, ⟨?_, fun file hfile => ?_⟩, fun f t hsome => ?_,
    fun f t tag lineas htag => ?_, fun f t tag htag => ?_⟩
  · have hcero := (hlink r (by rw [hb]; rfl)).1
    exact Option.some.inj (hb.symm.trans hcero)
  · obtain ⟨hcero, c', hc', hsome⟩ := hlink r hr
    have hmismo : c = c' := by
      have hleido : s.disco.getContenido r = some c' := hc'
      rw [Disco.getContenido, hcero, Option.bind_some, hc] at hleido
      exact Option.some.inj hleido
    rw [hmismo]
    exact hsome
  · rw [← h.files.nodup_iff, map_nameFile_levantado]
    exact listado.files_nodup
  · have hf : file.nameFile ∈ listado.files := by
      rw [listado.mem_files, isSome_buscarFile_iff]
      exact List.mem_map_of_mem hfile
    have hperm := h.tags file hfile (fileLevantado listado file.nameFile)
      (List.mem_map_of_mem hf) rfl
    rw [map_nameTag_fileLevantado] at hperm
    exact hperm.nodup_iff.mp (listado.tags_nodup _)
  · exact (listado.mem_tags f t).mp (htags f t hsome)
  · have hsome : (buscarTag s f t).isSome := by rw [htag]; rfl
    have hmismo := h.metadatos f t
    rw [buscarTag_levantado, if_pos ⟨mem_files_of_buscarTag listado hsome, htags f t hsome⟩, htag,
      Option.map_some, Option.map_some] at hmismo
    exact (metadata_tagLevantado_iff listado hcoh hg htag (htags f t hsome)).mp
      (Option.some.inj hmismo) lineas
  · have hsome : (buscarTag s f t).isSome := by rw [htag]; rfl
    have htag' := buscarTag_levantado listado sb f t
    rw [if_pos ⟨mem_files_of_buscarTag listado hsome, htags f t hsome⟩] at htag'
    have hperm := h.bloques f t tag _ htag htag'
    rw [map_nombreBlock_tagLevantado] at hperm
    refine ⟨hperm.nodup_iff.mp (listado.bloques_nodup f t), fun n => ?_⟩
    rw [← hperm.mem_iff, listado.mem_bloques]

theorem enIndice_of_recuperable (hcoh : Coherente sb s) (h : Recuperable md5 s)
    (hn : (s.disco.links (rutaBlockLogico f t n)).isSome) : EnIndice md5 s f t n := by
  obtain ⟨b, hb⟩ := Option.isSome_iff_exists.mp hn
  obtain ⟨c, hc, _⟩ := hcoh.archivo_cero
  refine ⟨c, ?_, h.indice _ c hn hc⟩
  rw [Disco.getContenido, hb, Option.bind_some, h.enlaces _ b hb, hc]

/-- The directories a run leaves can be listed. -/
theorem nonempty_listado (h : Alcanzable md5 sb s) : Nonempty (Listado s) := by
  have ho := enOrden_alcanzable h
  have hbloques : ∀ f t, {n | (s.disco.links (rutaBlockLogico f t n)).isSome}.Finite := by
    intro f t
    refine ho.enlaces_finitos.preimage (f := rutaBlockLogico f t) ?_
    intro n _ n' _ hruta
    exact (Prod.mk.inj (Prod.mk.inj hruta).2).2
  have htags : ∀ f, {t | s.disco.tagDirs (rutaTag f t) = true}.Finite := by
    intro f
    refine (List.finite_toSet (s.listaFiles.flatMap fun file =>
      file.tags.map Tag.nameTag)).subset fun t hdir => ?_
    obtain ⟨tag, htag⟩ := Option.isSome_iff_exists.mp (ho.carpeta_visible (rutaTag f t) hdir)
    obtain ⟨file, hfile, _, hmem⟩ := mem_of_buscarTag htag
    exact List.mem_flatMap.mpr ⟨file, hfile, List.mem_map.mpr ⟨tag, hmem,
      nameTag_of_buscarTag htag⟩⟩
  exact ⟨{
    files := (s.listaFiles.map File.nameFile).dedup
    tags := fun f => (htags f).toFinset.toList
    bloques := fun f t => (hbloques f t).toFinset.toList
    files_nodup := List.nodup_dedup _
    mem_files := fun f => by rw [List.mem_dedup, isSome_buscarFile_iff]
    tags_nodup := fun f => Finset.nodup_toList _
    mem_tags := fun f t => by simp
    bloques_nodup := fun f t => Finset.nodup_toList _
    mem_bloques := fun f t n => by simp }⟩

/-- A Storage started again recovers what a run from a fresh start left exactly when
all links are to block0000, whose hash is in the index, and the disk agrees with
memory. -/
theorem reiniciar_recupera_iff (h : Alcanzable md5 sb s) :
    (∃ s', reiniciar md5 sb s listado = .ok s' ∧ Recuperado sb s s') ↔ Recuperable md5 s := by
  have hcoh := coherente_alcanzable h
  have hg := guardado_alcanzable h
  have ho := enOrden_alcanzable h
  have hcero : ∀ p ∈ s.disco.blocksHashIndex, p.2 = bloqueFisicoInicial := by
    rw [hg.1]
    exact hcoh.indice_cero
  constructor
  · rintro ⟨s', hop, hrecuperado⟩
    have hindice := enIndice_of_reiniciar listado hcero hop
    rw [reiniciar_eq_ok listado hcero hindice] at hop
    obtain rfl := Except.ok.inj hop
    exact recuperable_of_recuperado listado hcoh hg hindice hrecuperado
  · intro hrecuperable
    refine ⟨_, reiniciar_eq_ok listado hcero ?_,
      recuperado_of_recuperable listado hcoh hg ho hrecuperable⟩
    exact fun f _ t _ n hn =>
      enIndice_of_recuperable hcoh hrecuperable ((listado.mem_bloques f t n).mp hn)

end Recuperacion

section Inicial

theorem directorios_freshStart (sb : Superbloque) :
    (freshStart sb).listaFiles = [⟨"initial_file", [tagInicial sb]⟩] ∧
      (freshStart sb).disco.tagDirs =
        Function.update (fun _ => false) (rutaTag "initial_file" "BASE") true ∧
      (freshStart sb).disco.links =
        Function.update (fun _ => none) rutaInicial (some bloqueFisicoInicial) ∧
      (freshStart sb).disco.blocksHashIndex = [] := by
  obtain ⟨mc, hmc⟩ := freshStart_eq sb
  rw [hmc]
  exact ⟨rfl, rfl, rfl, rfl⟩

/-- initial_file, its Tag BASE and the only logical block of it. -/
def listadoInicial (sb : Superbloque) : Listado (freshStart sb) where
  files := ["initial_file"]
  tags := fun f => if f = "initial_file" then ["BASE"] else []
  bloques := fun f t => if f = "initial_file" ∧ t = "BASE" then [bloqueLogicoInicial] else []
  files_nodup := List.nodup_singleton _
  mem_files := by
    intro f
    rw [isSome_buscarFile_iff, (directorios_freshStart sb).1]
    rfl
  tags_nodup := by
    intro f
    split_ifs
    · exact List.nodup_singleton _
    · exact List.nodup_nil
  mem_tags := by
    intro f t
    rw [(directorios_freshStart sb).2.1, Function.update_apply]
    by_cases hf : f = "initial_file"
    · simp [hf, rutaTag]
    · simp [hf, rutaTag]
  bloques_nodup := by
    intro f t
    split_ifs
    · exact List.nodup_singleton _
    · exact List.nodup_nil
  mem_bloques := by
    intro f t n
    rw [(directorios_freshStart sb).2.2.1, Function.update_apply]
    by_cases hft : f = "initial_file" ∧ t = "BASE"
    · simp [hft, rutaInicial, rutaBlockLogico]
    · have hruta : rutaBlockLogico f t n ≠ rutaInicial := by
        intro heq
        obtain ⟨hf, hrest⟩ := Prod.mk.inj heq
        exact hft ⟨hf, (Prod.mk.inj hrest).1⟩
      simp [hft, hruta]

theorem reiniciar_recupera_iff_inicial :
    (∃ s', reiniciar hashLegible superbloqueChico (freshStart superbloqueChico)
          (listadoInicial superbloqueChico) = .ok s' ∧
        Recuperado superbloqueChico (freshStart superbloqueChico) s') ↔
      Recuperable hashLegible (freshStart superbloqueChico) :=
  reiniciar_recupera_iff (listadoInicial superbloqueChico) (Reaches.refl _)

/-- The index is empty after a fresh start, and BASE has a block. -/
theorem not_reiniciar_recupera : ¬ ∀ md5 sb s (listado : Listado s), Alcanzable md5 sb s →
    ∃ s', reiniciar md5 sb s listado = .ok s' ∧ Recuperado sb s s' := by
  intro h
  obtain ⟨s', hop, -⟩ := h hashLegible superbloqueChico (freshStart superbloqueChico)
    (listadoInicial superbloqueChico) (Reaches.refl _)
  have hindex := (directorios_freshStart superbloqueChico).2.2.2
  obtain ⟨c, _, hsome⟩ := enIndice_of_reiniciar (listadoInicial superbloqueChico)
    (by rw [hindex]; simp) hop "initial_file" (by decide) "BASE" (by decide) bloqueLogicoInicial
    (by decide)
  rw [hindex] at hsome
  simp [configGet, first] at hsome

end Inicial

end MasterOfFiles.RestartRecovery
