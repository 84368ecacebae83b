import MasterOfFiles.ReachableStates

/-!
WRITE_BLOCK against READ_BLOCK. The write goes to the block named in memory,
which is always block0000; the read follows the hard link. The two meet only
for logical blocks linked to block0000, and there every other such block sees
the write too.
-/
namespace MasterOfFiles.WriteReadback

open KeyedLists ByteBuffers BlockNames StorageState StorageFiles StorageOperations
open TagLookups BlockZero RequestEffects ReachableStates

variable {md5 : Bytes → String} {sb : Superbloque} {s s' : Storage} {f t : String}

section Lecturas

/-- The block the hard link of logical block `n` refers to. -/
def enlaceDe (s : Storage) (f t : String) (n : ℕ) : Option String :=
  ((buscarTag s f t).bind fun tag => tag.listaBlockLogicos[n]?).bind fun bl =>
    s.disco.links (rutaBlockLogico f t bl.nombreBlock)

def contenidoDe (s : Storage) (f t : String) (n : ℕ) : Option Bytes :=
  (enlaceDe s f t n).bind s.disco.physicalBlocks

/-- What is sent of the contents of a block. -/
def enviado (sb : Superbloque) (contenido : Option Bytes) : Respuesta :=
  (contenido.map fun c => Respuesta.bloque ((c ++ [0]).take sb.blockSize)).getD .error

theorem storageReadBlock_eq_enviado (sb : Superbloque) (s : Storage) (f t : String) (n : ℤ) :
    storageReadBlock sb s f t n =
      if n < 0 then .error else enviado sb (contenidoDe s f t n.toNat) := by
  unfold storageReadBlock contenidoDe enlaceDe
  cases htag : buscarTag s f t with
  | none => simp [enviado]
  | some tag =>
    rw [Option.bind_some]
    by_cases hrange : n < 0 ∨ (tag.listaBlockLogicos.length : ℤ) ≤ n
    · have hnone : n < 0 ∨ tag.listaBlockLogicos[n.toNat]? = none := by
        rcases hrange with hneg | hlength
        · exact Or.inl hneg
        · exact Or.inr (List.getElem?_eq_none (by omega))
      simp only [if_pos hrange]
      rcases hnone with hneg | hnone
      · rw [if_pos hneg]
      · simp [hnone, enviado]
    · simp only [if_neg hrange]
      rw [if_neg fun hneg => hrange (Or.inl hneg)]
      cases hbl : tag.listaBlockLogicos[n.toNat]? with
      | none => rfl
      | some bl =>
        rw [Option.bind_some]
        change _ = enviado sb (s.disco.getContenido (rutaBlockLogico f t bl.nombreBlock))
        simp only [operacionReadBloque]
        cases s.disco.getContenido (rutaBlockLogico f t bl.nombreBlock) with
        | none => rfl
        | some contenido => rfl

/-- Where block files fill a block, READ_BLOCK sends the linked block's file whole. -/
theorem storageReadBlock_eq_of_length
    (hlargo : ∀ r c, s.disco.getContenido r = some c → c.length = sb.blockSize) (f t : String)
    (n : ℤ) : storageReadBlock sb s f t n =
      if n < 0 then .error else ((contenidoDe s f t n.toNat).map Respuesta.bloque).getD .error := by
  rw [storageReadBlock_eq_enviado]
  congr 1
  cases hc : contenidoDe s f t n.toNat with
  | none => rfl
  | some contenido =>
    have hlen : contenido.length = sb.blockSize := by
      obtain ⟨b, hlink, hb⟩ := Option.bind_eq_some_iff.mp hc
      obtain ⟨bl, _, hr⟩ := Option.bind_eq_some_iff.mp hlink
      refine hlargo (rutaBlockLogico f t bl.nombreBlock) contenido ?_
      rw [Disco.getContenido, hr, Option.bind_some, hb]
    simp only [enviado, Option.map_some, Option.getD_some]
    rw [List.take_append_of_le_length (by omega), List.take_of_length_le (by omega)]

/-- Then READ_BLOCK answers the same just when the linked contents are the same. -/
theorem storageReadBlock_natCast_eq_iff {s₁ s₂ : Storage}
    (h₁ : ∀ r c, s₁.disco.getContenido r = some c → c.length = sb.blockSize)
    (h₂ : ∀ r c, s₂.disco.getContenido r = some c → c.length = sb.blockSize)
    (f₁ t₁ f₂ t₂ : String) (n : ℕ) :
    storageReadBlock sb s₁ f₁ t₁ n = storageReadBlock sb s₂ f₂ t₂ n ↔
      contenidoDe s₁ f₁ t₁ n = contenidoDe s₂ f₂ t₂ n := by
  rw [storageReadBlock_eq_of_length h₁, storageReadBlock_eq_of_length h₂, if_neg (by omega),
    if_neg (by omega), Int.toNat_natCast]
  cases h₁' : contenidoDe s₁ f₁ t₁ n with
  | none =>
    cases h₂' : contenidoDe s₂ f₂ t₂ n with
    | none => simp
    | some b => simp
  | some b =>
    cases h₂' : contenidoDe s₂ f₂ t₂ n with
    | none => simp
    | some b' => simp

theorem storageReadBlock_eq_iff_of_length {s₁ s₂ : Storage}
    (h₁ : ∀ r c, s₁.disco.getContenido r = some c → c.length = sb.blockSize)
    (h₂ : ∀ r c, s₂.disco.getContenido r = some c → c.length = sb.blockSize)
    (f₁ t₁ f₂ t₂ : String) :
    (∀ i, storageReadBlock sb s₁ f₁ t₁ i = storageReadBlock sb s₂ f₂ t₂ i) ↔
      ∀ n, contenidoDe s₁ f₁ t₁ n = contenidoDe s₂ f₂ t₂ n := by
  constructor
  · intro hread n
    exact (storageReadBlock_natCast_eq_iff h₁ h₂ f₁ t₁ f₂ t₂ n).mp (hread n)
  · intro hcontenido i
    rw [storageReadBlock_eq_of_length h₁, storageReadBlock_eq_of_length h₂, hcontenido]

/-- In a reachable state READ_BLOCK sends the linked block's file whole. -/
theorem storageReadBlock_eq (h : Coherente sb s) (f t : String) (n : ℤ) :
    storageReadBlock sb s f t n =
      if n < 0 then .error else ((contenidoDe s f t n.toNat).map Respuesta.bloque).getD .error :=
  storageReadBlock_eq_of_length (fun _ _ hc => h.length_of_getContenido hc) f t n

/-- READ_BLOCK answers the same when the linked contents are the same. -/
theorem storageReadBlock_eq_iff {s₁ s₂ : Storage} (h₁ : Coherente sb s₁) (h₂ : Coherente sb s₂)
    (f₁ t₁ f₂ t₂ : String) :
    (∀ i, storageReadBlock sb s₁ f₁ t₁ i = storageReadBlock sb s₂ f₂ t₂ i) ↔
      ∀ n, contenidoDe s₁ f₁ t₁ n = contenidoDe s₂ f₂ t₂ n :=
  storageReadBlock_eq_iff_of_length (fun _ _ hc => h₁.length_of_getContenido hc)
    (fun _ _ hc => h₂.length_of_getContenido hc) f₁ t₁ f₂ t₂

theorem contenidoDe_of_escribible {n : ℕ} {contenido original : Bytes} {bl : BlockLogico}
    (he : Escribible sb s f t n contenido bl original) : contenidoDe s f t n = some original := by
  unfold contenidoDe enlaceDe
  rw [he.bloque]
  exact he.previo

/-- Where the bytes of a written block come from. -/
theorem getElem?_bufferEscritura {original contenido : Bytes}
    (horiginal : original.length = sb.blockSize) (hcabe : contenido.length ≤ sb.blockSize) (i : ℕ)
    (hi : i < sb.blockSize) :
    (bufferEscritura sb original contenido)[i]? =
      if i < contenido.length then contenido[i]?
      else if i < strlen original then original[i]? else some 0 := by
  have hstrlen : strlen original ≤ sb.blockSize := horiginal ▸ strlen_le original
  have htake : (cString original).take sb.blockSize = cString original :=
    List.take_of_length_le hstrlen
  have hceros : (List.replicate sb.blockSize (0 : UInt8)).length = sb.blockSize :=
    List.length_replicate
  have hprevio : 0 + (cString original).length ≤
      (List.replicate sb.blockSize (0 : UInt8)).length := by
    rw [hceros, Nat.zero_add]
    exact hstrlen
  unfold bufferEscritura
  rw [htake, getElem?_overlay _ _ _ (by rw [length_overlay _ _ _ hprevio]; omega),
    getElem?_overlay _ _ _ hprevio, Nat.zero_add, Nat.zero_add, Nat.sub_zero]
  by_cases hlow : i < contenido.length
  · rw [if_pos ⟨by omega, hlow⟩, if_pos hlow]
  · rw [if_neg (fun h => hlow h.2), if_neg hlow]
    by_cases hmid : i < strlen original
    · rw [if_pos ⟨by omega, hmid⟩, if_pos hmid, getElem?_cString, if_pos hmid]
    · rw [if_neg (fun h => hmid h.2), if_neg hmid, List.getElem?_replicate, if_pos hi]

end Lecturas

section Escrituras

variable {n : ℕ} {contenido : Bytes}

/-- A WRITE_BLOCK that answers OK leaves the state `escribirCero` describes. -/
theorem write_ok (h : Coherente sb s)
    (hop : storageWriteBlock md5 sb s f t n contenido = (s', .ok)) :
    ∃ bl original, Escribible sb s f t n contenido bl original ∧
      s' = escribirCero md5 sb s original contenido := by
  rcases write_casos h md5 f t n contenido with herror | ⟨bl, original, he, hok⟩
  · rw [herror] at hop
    simp at hop
  · rw [hok] at hop
    exact ⟨bl, original, he, (Prod.mk.inj hop).1.symm⟩

theorem enlaceDe_escribirCero (original : Bytes) (f' t' : String) (m : ℕ) :
    enlaceDe (escribirCero md5 sb s original contenido) f' t' m = enlaceDe s f' t' m := rfl

/-- After the write, exactly the blocks linked to block0000 hold the new bytes. -/
theorem contenidoDe_escribirCero (md5 : Bytes → String) (sb : Superbloque) (s : Storage)
    (contenido original : Bytes) (f' t' : String) (m : ℕ) :
    contenidoDe (escribirCero md5 sb s original contenido) f' t' m =
      if enlaceDe s f' t' m = some bloqueFisicoInicial
      then some (bufferEscritura sb original contenido) else contenidoDe s f' t' m := by
  unfold contenidoDe
  rw [enlaceDe_escribirCero]
  cases hlink : enlaceDe s f' t' m with
  | none => simp
  | some b =>
    rw [Option.bind_some, Option.bind_some]
    change Function.update s.disco.physicalBlocks bloqueFisicoInicial _ b = _
    rcases eq_or_ne b bloqueFisicoInicial with rfl | hne
    · rw [Function.update_self, if_pos rfl]
    · rw [Function.update_of_ne hne, if_neg fun heq => hne (Option.some.inj heq)]

/-- READ_BLOCK of page `n` returns the bytes just written and, behind them, the
bytes it returned before. -/
def LeeLoEscrito (sb : Superbloque) (s s' : Storage) (f t : String) (n : ℕ) (contenido : Bytes) :
    Prop :=
  ∃ antes despues, storageReadBlock sb s f t n = .bloque antes ∧
    storageReadBlock sb s' f t n = .bloque despues ∧ despues.length = sb.blockSize ∧
    despues.take contenido.length = contenido ∧
    despues.drop contenido.length = antes.drop contenido.length

/-- Page `n` is linked to block0000 and holds only NULs behind both the new bytes
and its first NUL, or it is linked elsewhere and holds the new bytes already. -/
def SeLeeraLoEscrito (sb : Superbloque) (s : Storage) (f t : String) (n : ℕ) (contenido : Bytes) :
    Prop :=
  ∃ original, contenidoDe s f t n = some original ∧
    if enlaceDe s f t n = some bloqueFisicoInicial
    then ∀ i < sb.blockSize, contenido.length ≤ i → strlen original ≤ i → original[i]? = some 0
    else original.take contenido.length = contenido

theorem read_of_contenidoDe (h : Coherente sb s) {b : Bytes} (hb : contenidoDe s f t n = some b) :
    storageReadBlock sb s f t n = .bloque b := by
  rw [storageReadBlock_eq h, if_neg (by omega), Int.toNat_natCast, hb]
  rfl

/-- Reading back, from the bytes before and after. -/
theorem leeLoEscrito_iff_bytes (h : Coherente sb s) (h' : Coherente sb s')
    {original nuevo : Bytes} (hantes : contenidoDe s f t n = some original)
    (hdespues : contenidoDe s' f t n = some nuevo) :
    LeeLoEscrito sb s s' f t n contenido ↔ nuevo.length = sb.blockSize ∧
      nuevo.take contenido.length = contenido ∧
        nuevo.drop contenido.length = original.drop contenido.length := by
  have hleer := read_of_contenidoDe h hantes
  have hleer' := read_of_contenidoDe h' hdespues
  constructor
  · rintro ⟨antes, despues, hleido, hleido', hbytes⟩
    rw [hleer] at hleido
    rw [hleer'] at hleido'
    obtain rfl := Respuesta.bloque.inj hleido
    obtain rfl := Respuesta.bloque.inj hleido'
    exact hbytes
  · exact fun hbytes => ⟨original, nuevo, hleer, hleer', hbytes⟩

theorem seLeeraLoEscrito_iff {original : Bytes} (hprevio : contenidoDe s f t n = some original) :
    SeLeeraLoEscrito sb s f t n contenido ↔
      if enlaceDe s f t n = some bloqueFisicoInicial
      then ∀ i < sb.blockSize, contenido.length ≤ i → strlen original ≤ i → original[i]? = some 0
      else original.take contenido.length = contenido := by
  constructor
  · rintro ⟨original', hprevio', hcond⟩
    obtain rfl := Option.some.inj (hprevio.symm.trans hprevio')
    exact hcond
  · exact fun hcond => ⟨original, hprevio, hcond⟩

theorem take_bufferEscritura {original : Bytes} (horiginal : original.length = sb.blockSize)
    (hcabe : contenido.length ≤ sb.blockSize) :
    (bufferEscritura sb original contenido).take contenido.length = contenido := by
  refine take_eq_of_getElem? fun i hi => ?_
  rw [getElem?_bufferEscritura horiginal hcabe i (lt_of_lt_of_le hi hcabe), if_pos hi]

/-- The bytes behind the new ones stay where the old ones are NUL from the first on. -/
theorem drop_bufferEscritura_iff {original : Bytes} (horiginal : original.length = sb.blockSize)
    (hcabe : contenido.length ≤ sb.blockSize) :
    (bufferEscritura sb original contenido).drop contenido.length =
        original.drop contenido.length ↔
      ∀ i < sb.blockSize, contenido.length ≤ i → strlen original ≤ i → original[i]? = some 0 := by
  have hlength := length_bufferEscritura original hcabe
  rw [drop_eq_drop_iff (hlength.trans horiginal.symm), hlength]
  refine forall₃_congr fun i hi hlow => ?_
  rw [getElem?_bufferEscritura horiginal hcabe i hi, if_neg (by omega)]
  by_cases hmid : i < strlen original
  · rw [if_pos hmid]
    exact iff_of_true rfl fun hstr => absurd hmid (by omega)
  · rw [if_neg hmid]
    exact ⟨fun heq _ => heq.symm, fun hzero => (hzero (by omega)).symm⟩

/-- A write that answers OK is read back just when the page meets the condition. -/
theorem leeLoEscrito_iff (h : Alcanzable md5 sb s)
    (hop : storageWriteBlock md5 sb s f t n contenido = (s', .ok)) :
    LeeLoEscrito sb s s' f t n contenido ↔ SeLeeraLoEscrito sb s f t n contenido := by
  have hcoh := coherente_alcanzable h
  obtain ⟨bl, original, he, rfl⟩ := write_ok hcoh hop
  have hcoh' := coherente_escribirCero hcoh md5 original he.cabe
  have hprevio := contenidoDe_of_escribible he
  have horiginal := hcoh.length_of_getContenido he.previo
  have hdespues := contenidoDe_escribirCero md5 sb s contenido original f t n
  rw [seLeeraLoEscrito_iff hprevio]
  by_cases hlink : enlaceDe s f t n = some bloqueFisicoInicial
  · rw [if_pos hlink] at hdespues
    rw [if_pos hlink, leeLoEscrito_iff_bytes hcoh hcoh' hprevio hdespues,
      drop_bufferEscritura_iff horiginal he.cabe]
    have hlength := length_bufferEscritura original he.cabe
    have htake := take_bufferEscritura horiginal he.cabe
    exact ⟨fun hbytes => hbytes.2.2, fun hceros => ⟨hlength, htake, hceros⟩⟩
  · rw [if_neg hlink, hprevio] at hdespues
    rw [if_neg hlink, leeLoEscrito_iff_bytes hcoh hcoh' hprevio hdespues]
    exact ⟨fun hbytes => hbytes.2.1, fun htake => ⟨horiginal, htake, rfl⟩⟩

theorem leeLoEscrito_iff_base :
    LeeLoEscrito superbloqueChico (estadoTras hashLegible superbloqueChico [])
        (storageWriteBlock hashLegible superbloqueChico
          (estadoTras hashLegible superbloqueChico []) "initial_file" "BASE" 0 [88]).1
        "initial_file" "BASE" 0 [88] ↔
      SeLeeraLoEscrito superbloqueChico (estadoTras hashLegible superbloqueChico [])
        "initial_file" "BASE" 0 [88] :=
  leeLoEscrito_iff (alcanzable_estadoTras hashLegible superbloqueChico [])
    (Prod.ext rfl (by decide))

/-- A page TRUNCATE added reads NULs after it was written. -/
theorem not_leeLoEscrito_truncate : ¬ ∀ md5 sb s s' f t n contenido, Alcanzable md5 sb s →
    storageWriteBlock md5 sb s f t n contenido = (s', .ok) →
    LeeLoEscrito sb s s' f t n contenido := by
  intro h
  have hwrite : storageWriteBlock hashLegible superbloqueChico (estadoTras hashLegible
      superbloqueChico [.create "a" "b", .truncate "a" "b" 2]) "a" "b" 0 [88] =
      ((storageWriteBlock hashLegible superbloqueChico (estadoTras hashLegible
        superbloqueChico [.create "a" "b", .truncate "a" "b" 2]) "a" "b" 0 [88]).1, .ok) :=
    Prod.ext rfl (by decide)
  have hread : storageReadBlock superbloqueChico (storageWriteBlock hashLegible superbloqueChico
      (estadoTras hashLegible superbloqueChico [.create "a" "b", .truncate "a" "b" 2])
      "a" "b" 0 [88]).1 "a" "b" 0 = .bloque [0, 0] := by decide
  obtain ⟨_, despues, _, hdespues, _, htake, _⟩ := h _ _ _ _ _ _ _ _
    (alcanzable_estadoTras hashLegible superbloqueChico _) hwrite
  rw [Nat.cast_zero, hread] at hdespues
  obtain rfl := Respuesta.bloque.inj hdespues
  exact absurd htake (by decide)

/-- The file of block0000 already holds the bytes a write of `contenido` to page
`n` puts there. -/
def YaEscrito (sb : Superbloque) (s : Storage) (f t : String) (n : ℕ) (contenido : Bytes) : Prop :=
  ∀ original cero, contenidoDe s f t n = some original →
    s.disco.physicalBlocks bloqueFisicoInicial = some cero →
    ∀ i < sb.blockSize, cero[i]? = if i < contenido.length then contenido[i]?
      else if i < strlen original then original[i]? else some 0

theorem yaEscrito_iff (h : Coherente sb s) {bl : BlockLogico} {original cero : Bytes}
    (he : Escribible sb s f t n contenido bl original)
    (hcero : s.disco.physicalBlocks bloqueFisicoInicial = some cero) :
    YaEscrito sb s f t n contenido ↔ bufferEscritura sb original contenido = cero := by
  have horiginal := h.length_of_getContenido he.previo
  have hprevio := contenidoDe_of_escribible he
  have hbytes := getElem?_bufferEscritura horiginal he.cabe
  have hlength := length_bufferEscritura original he.cabe
  obtain ⟨cero', hcero', hlenCero⟩ := h.archivo_cero
  obtain rfl := Option.some.inj (hcero.symm.trans hcero')
  constructor
  · intro hya
    apply List.ext_getElem?
    intro i
    by_cases hi : i < sb.blockSize
    · rw [hbytes i hi, hya original cero hprevio hcero i hi]
    · rw [List.getElem?_eq_none (by omega), List.getElem?_eq_none (by omega)]
  · rintro rfl original' cero' hprevio' hcero' i hi
    obtain rfl := Option.some.inj (hprevio.symm.trans hprevio')
    obtain rfl := Option.some.inj (hcero.symm.trans hcero')
    exact hbytes i hi

/-- What READ_BLOCK returns for a block changes exactly when the block is linked
to block0000 and block0000 changes. -/
theorem lectura_escribirCero_iff (md5 : Bytes → String) (h : Coherente sb s) {bl : BlockLogico}
    {original : Bytes} (he : Escribible sb s f t n contenido bl original) (f' t' : String) (m : ℤ) :
    storageReadBlock sb (escribirCero md5 sb s original contenido) f' t' m =
        storageReadBlock sb s f' t' m ↔
      YaEscrito sb s f t n contenido ∨ m < 0 ∨
        enlaceDe s f' t' m.toNat ≠ some bloqueFisicoInicial := by
  obtain ⟨cero, hcero, _⟩ := h.archivo_cero
  have hcoh' := coherente_escribirCero h md5 original he.cabe
  rw [yaEscrito_iff h he hcero, storageReadBlock_eq h, storageReadBlock_eq hcoh',
    contenidoDe_escribirCero]
  by_cases hneg : m < 0
  · simp [hneg]
  · by_cases hlink : enlaceDe s f' t' m.toNat = some bloqueFisicoInicial
    · have hcontenido : contenidoDe s f' t' m.toNat = some cero := by
        rw [contenidoDe, hlink, Option.bind_some, hcero]
      rw [if_neg hneg, if_neg hneg, if_pos hlink, hcontenido]
      simp [hneg, hlink]
    · simp [hneg, hlink]

/-- No other logical block reads differently after the write. -/
def EscrituraAislada (sb : Superbloque) (s s' : Storage) (f t : String) (n : ℕ) : Prop :=
  ∀ f' t' (m : ℤ), (f', t', m) ≠ (f, t, (n : ℤ)) →
    storageReadBlock sb s' f' t' m = storageReadBlock sb s f' t' m

/-- A write that answers OK leaves all other blocks alone just when it changes
no byte of block0000 or no other block is linked there. -/
theorem escrituraAislada_iff (h : Alcanzable md5 sb s)
    (hop : storageWriteBlock md5 sb s f t n contenido = (s', .ok)) :
    EscrituraAislada sb s s' f t n ↔ YaEscrito sb s f t n contenido ∨
      ∀ f' t' (m : ℕ), (f', t', m) ≠ (f, t, n) →
        enlaceDe s f' t' m ≠ some bloqueFisicoInicial := by
  have hcoh := coherente_alcanzable h
  obtain ⟨bl, original, he, rfl⟩ := write_ok hcoh hop
  have hlectura := lectura_escribirCero_iff md5 hcoh he
  constructor
  · intro haislada
    by_cases hya : YaEscrito sb s f t n contenido
    · exact Or.inl hya
    · refine Or.inr fun f' t' m hne => ?_
      have hne' : (f', t', (m : ℤ)) ≠ (f, t, (n : ℤ)) := by
        simpa using hne
      rcases (hlectura f' t' m).mp (haislada f' t' m hne') with hya' | hneg | hlink
      · exact absurd hya' hya
      · omega
      · simpa using hlink
  · rintro hcond f' t' m hne
    refine (hlectura f' t' m).mpr ?_
    rcases hcond with hya | hlink
    · exact Or.inl hya
    · refine Or.inr ?_
      by_cases hneg : m < 0
      · exact Or.inl hneg
      · refine Or.inr (hlink f' t' m.toNat fun heq => hne ?_)
        simp only [Prod.mk.injEq] at heq ⊢
        exact ⟨heq.1, heq.2.1, by omega⟩

/-- The block of a:b is linked to block0001, so a write of BASE does not reach it. -/
theorem escrituraAislada_iff_dosTags :
    EscrituraAislada superbloqueChico
        (estadoTras hashLegible superbloqueChico [.create "a" "b", .truncate "a" "b" 2])
        (storageWriteBlock hashLegible superbloqueChico
          (estadoTras hashLegible superbloqueChico [.create "a" "b", .truncate "a" "b" 2])
          "initial_file" "BASE" 0 [88]).1
        "initial_file" "BASE" 0 ↔
      YaEscrito superbloqueChico
        (estadoTras hashLegible superbloqueChico [.create "a" "b", .truncate "a" "b" 2])
        "initial_file" "BASE" 0 [88] ∨
      ∀ f' t' (m : ℕ), (f', t', m) ≠ ("initial_file", "BASE", 0) →
        enlaceDe (estadoTras hashLegible superbloqueChico [.create "a" "b", .truncate "a" "b" 2])
          f' t' m ≠ some bloqueFisicoInicial :=
  escrituraAislada_iff (alcanzable_estadoTras hashLegible superbloqueChico _)
    (Prod.ext rfl (by decide))

/-- Writing a Tag changes the Tag it was copied from. -/
theorem not_escrituraAislada_tag : ¬ ∀ md5 sb s s' f t n contenido, Alcanzable md5 sb s →
    storageWriteBlock md5 sb s f t n contenido = (s', .ok) → EscrituraAislada sb s s' f t n := by
  intro h
  have hwrite : storageWriteBlock hashLegible superbloqueChico (estadoTras hashLegible
      superbloqueChico [.tag "initial_file" "BASE" "a" "b"]) "a" "b" 0 [88] =
      ((storageWriteBlock hashLegible superbloqueChico (estadoTras hashLegible
        superbloqueChico [.tag "initial_file" "BASE" "a" "b"]) "a" "b" 0 [88]).1, .ok) :=
    Prod.ext rfl (by decide)
  have hread := h _ _ _ _ _ _ _ _ (alcanzable_estadoTras hashLegible superbloqueChico _) hwrite
    "initial_file" "BASE" 0 (by decide)
  exact absurd hread (by decide)

end Escrituras

end MasterOfFiles.WriteReadback
