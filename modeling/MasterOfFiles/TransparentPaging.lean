import MasterOfFiles.PagingSimulation

/-!
Accesses through the Worker's memory against accesses to flat byte arrays. Each
round of acceder_memoria does to the arrays what its part of the range asks for,
and the rounds put together do the whole range.
-/
namespace MasterOfFiles.TransparentPaging

open ByteBuffers WriteBackCaches WorkerMemory FrameTables PagingSimulation

variable {σ : Type*} {ram : Ram} {reloj : Reloj} {srv : Servidor σ}
  {paginas : String × String → ℕ} {contenido : σ → Clave → Bytes} {w : Worker σ} {plano : Plano}

section Tramos

/-- What an access does to the arrays from `desplaz` on, over `n` bytes. -/
def planoTras (a : Acceso) (plano : Plano) (desplaz n : ℕ) : Plano :=
  if a.escribir then
    Function.update plano (a.file, a.tag)
      (overlay (plano (a.file, a.tag)) (a.base + desplaz) (slice a.entrada desplaz n))
  else plano

/-- What it leaves in the caller's buffer. -/
def salidaTras (a : Acceso) (plano : Plano) (salida : Bytes) (desplaz n : ℕ) : Bytes :=
  if a.escribir then salida
  else overlay salida desplaz (slice (plano (a.file, a.tag)) (a.base + desplaz) n)

/-- The range from `desplaz` on, over `n` bytes, is inside the array and the buffers. -/
structure Cabe (a : Acceso) (plano : Plano) (salida : Bytes) (desplaz n : ℕ) : Prop where
  plano : a.base + desplaz + n ≤ (plano (a.file, a.tag)).length
  entrada : a.escribir = true → desplaz + n ≤ a.entrada.length
  salida : a.escribir = false → desplaz + n ≤ salida.length

variable {a : Acceso} {salida : Bytes} {desplaz n m : ℕ}

theorem Cabe.anterior (h : Cabe a plano salida desplaz (n + m)) :
    Cabe a plano salida desplaz n where
  plano := by
    have := h.plano
    omega
  entrada := fun he => by
    have := h.entrada he
    omega
  salida := fun he => by
    have := h.salida he
    omega

theorem length_planoTras (h : Cabe a plano salida desplaz n) (ft : String × String) :
    (planoTras a plano desplaz n ft).length = (plano ft).length := by
  unfold planoTras
  split_ifs with he
  · rcases eq_or_ne ft (a.file, a.tag) with rfl | hne
    · have hcabe := h.plano
      have hlen := length_slice a.entrada desplaz n (h.entrada he)
      rw [Function.update_self]
      exact length_overlay _ _ _ (by omega)
    · rw [Function.update_of_ne hne]
  · rfl

theorem length_salidaTras (h : Cabe a plano salida desplaz n) :
    (salidaTras a plano salida desplaz n).length = salida.length := by
  unfold salidaTras
  split_ifs with he
  · rfl
  · have hcabe := h.salida (Bool.eq_false_iff.mpr he)
    have hlen := length_slice (plano (a.file, a.tag)) (a.base + desplaz) n h.plano
    exact length_overlay _ _ _ (by omega)

theorem Cabe.siguiente (h : Cabe a plano salida desplaz (n + m)) :
    Cabe a (planoTras a plano desplaz n) (salidaTras a plano salida desplaz n) (desplaz + n) m where
  plano := by
    rw [length_planoTras h.anterior]
    have := h.plano
    omega
  entrada := fun he => by
    have := h.entrada he
    omega
  salida := fun he => by
    rw [length_salidaTras h.anterior]
    have := h.salida he
    omega

/-- Two parts of a range one after the other are the range. -/
theorem planoTras_planoTras (h : Cabe a plano salida desplaz (n + m)) :
    planoTras a (planoTras a plano desplaz n) (desplaz + n) m =
      planoTras a plano desplaz (n + m) := by
  unfold planoTras
  split_ifs with he
  · have hcabe := h.plano
    have hentrada := h.entrada he
    have hn := length_slice a.entrada desplaz n (by omega)
    have hm := length_slice a.entrada (desplaz + n) m (by omega)
    have happend := overlay_append (plano (a.file, a.tag)) (a.base + desplaz)
      (slice a.entrada desplaz n) (slice a.entrada (desplaz + n) m) (by omega)
    rw [hn, Nat.add_assoc a.base] at happend
    rw [Function.update_self, Function.update_idem, happend, ← slice_add]
  · rfl

theorem salidaTras_salidaTras (h : Cabe a plano salida desplaz (n + m)) :
    salidaTras a (planoTras a plano desplaz n) (salidaTras a plano salida desplaz n)
      (desplaz + n) m = salidaTras a plano salida desplaz (n + m) := by
  unfold salidaTras planoTras
  split_ifs with he
  · rfl
  · have hcabe := h.plano
    have hsalida := h.salida (Bool.eq_false_iff.mpr he)
    have hn := length_slice (plano (a.file, a.tag)) (a.base + desplaz) n (by omega)
    have hm := length_slice (plano (a.file, a.tag)) (a.base + desplaz + n) m (by omega)
    have happend := overlay_append salida desplaz
      (slice (plano (a.file, a.tag)) (a.base + desplaz) n)
      (slice (plano (a.file, a.tag)) (a.base + desplaz + n) m) (by omega)
    rw [hn] at happend
    rw [← Nat.add_assoc, happend, ← slice_add]

/-- An empty range does nothing. -/
theorem planoTras_zero (a : Acceso) (plano : Plano) (desplaz : ℕ) :
    planoTras a plano desplaz 0 = plano := by
  unfold planoTras slice
  rw [List.take_zero, overlay_nil, Function.update_eq_self]
  split_ifs <;> rfl

theorem salidaTras_zero (a : Acceso) (plano : Plano) (salida : Bytes) (desplaz : ℕ) :
    salidaTras a plano salida desplaz 0 = salida := by
  unfold salidaTras slice
  rw [List.take_zero, overlay_nil]
  split_ifs <;> rfl

end Tramos

section Direcciones

variable {dir restante : ℕ}

theorem nroPagina_eq (hdir : dir < 2 ^ 64) (hpagina : dir / ram.pageSize < 2 ^ 32) :
    nroPagina ram dir = dir / ram.pageSize := by
  unfold nroPagina
  rw [Nat.mod_eq_of_lt hdir, Nat.mod_eq_of_lt hpagina]

theorem desplazamiento_eq (hdir : dir < 2 ^ 64) : desplazamiento ram dir = dir % ram.pageSize := by
  unfold desplazamiento
  rw [Nat.mod_eq_of_lt hdir]

/-- A round copies at least one byte, none past the range and none past the page. -/
theorem tramo_spec (ram : Ram) (dir : ℕ) (hrestante : 0 < restante) :
    0 < tramo ram dir restante ∧ tramo ram dir restante ≤ restante ∧
      desplazamiento ram dir + tramo ram dir restante ≤ ram.pageSize := by
  have hlt : desplazamiento ram dir < ram.pageSize := Nat.mod_lt _ ram.page_pos
  unfold tramo
  omega

end Direcciones

section Accesos

variable {a : Acceso} {salida : Bytes} {desplaz n i p off : ℕ}

/-- The arrays after a write inside one page, seen page by page. -/
theorem paginaDe_update {ft : String × String} {bytes : Bytes}
    (hcabe : p * ram.pageSize + off + bytes.length ≤ (plano ft).length)
    (hpagina : p * ram.pageSize + ram.pageSize ≤ (plano ft).length)
    (hoff : off + bytes.length ≤ ram.pageSize) :
    paginaDe ram (Function.update plano ft
        (overlay (plano ft) (p * ram.pageSize + off) bytes)) =
      Function.update (paginaDe ram plano) (ft, p)
        (overlay (paginaDe ram plano (ft, p)) off bytes) := by
  funext k
  obtain ⟨ft', p'⟩ := k
  unfold paginaDe
  dsimp only
  rcases eq_or_ne ft' ft with rfl | hft
  · rw [Function.update_self]
    rcases eq_or_ne p' p with rfl | hp
    · rw [Function.update_self]
      exact slice_overlay_inside _ _ _ _ _ hpagina hoff
    · have hne : (ft', p') ≠ (ft', p) := fun heq => hp (Prod.mk.inj heq).2
      have haparte := marcos_aparte ram hp
      rw [Function.update_of_ne hne]
      exact slice_overlay_outside _ _ _ _ _ hcabe (by omega)
  · have hne : (ft', p') ≠ (ft, p) := fun heq => hft (Prod.mk.inj heq).1
    rw [Function.update_of_ne hft, Function.update_of_ne hne]

/-- Writing into the frame of a page changes its line alone. -/
theorem escribirTramo_linea (h : Ordenada ram w.memoria) (hi : i < ram.frames)
    {b : Line Clave Bytes} (hb : linea ram w.memoria i = some b) (off : ℕ) (bytes : Bytes)
    (hoff : off + bytes.length ≤ ram.pageSize) :
    Ordenada ram (escribirTramo w i (i * ram.pageSize + off) bytes).memoria ∧
      linea ram (escribirTramo w i (i * ram.pageSize + off) bytes).memoria =
        Function.update (linea ram w.memoria) i
          (some ⟨b.key, overlay b.value off bytes, true⟩) := by
  have hcabe := marco_cabe ram hi
  obtain ⟨f, hf, hclave, _, hvalor⟩ := linea_eq_some hb
  have hcopia := linea_copiar h hi off bytes hoff
  have hordenada := h.copiar (i * ram.pageSize + off) bytes (by omega)
  set area := overlay w.memoria.direccionBase (i * ram.pageSize + off) bytes with harea
  have hsucio : lineaDe ram area (sucio f) =
      some ⟨b.key, overlay b.value off bytes, true⟩ := by
    have htam := h.tamanio
    have hbase := h.bases i f hf
    unfold lineaDe
    rw [show claveDe (sucio f) = some b.key from hclave, Option.map_some, ← hvalor, harea]
    change some (Line.mk b.key (slice _ f.base _) true) = _
    rw [hbase, slice_overlay_inside _ _ _ _ _ (by omega) hoff]
  have hlinea := linea_modificarMarco ram { w.memoria with direccionBase := area } i sucio
  rw [hcopia, Function.update_idem, hf, Option.bind_some, hsucio] at hlinea
  refine ⟨?_, hlinea⟩
  exact hordenada.modificarMarco i (fun _ => rfl)
    (fun f' hf' _ => by
      obtain rfl := Option.some.inj (hf.symm.trans hf')
      exact Option.isSome_of_eq_some hclave)
    fun _ hr => hr

/-- Writing into the frame of a page writes the page. -/
theorem escribirTramo_simula (h : Simula ram paginas contenido w plano) (hi : i < ram.frames)
    {b : Line Clave Bytes} (hb : linea ram w.memoria i = some b) (off : ℕ) (bytes : Bytes)
    (hoff : off + bytes.length ≤ ram.pageSize) :
    Simula ram paginas contenido (escribirTramo w i (i * ram.pageSize + off) bytes)
      (Function.update plano b.key.1
        (overlay (plano b.key.1) (b.key.2 * ram.pageSize + off) bytes)) := by
  have hvalida : b.key.2 < paginas b.key.1 := h.representa.inside i b hb
  have hpagina : b.key.2 * ram.pageSize + ram.pageSize ≤ (plano b.key.1).length := by
    rw [h.largo, ← Nat.succ_mul]
    exact Nat.mul_le_mul_right _ hvalida
  obtain ⟨hordenada, hlinea⟩ := escribirTramo_linea h.ordenada hi hb off bytes hoff
  refine ⟨hordenada, fun ft => ?_, ?_⟩
  · rcases eq_or_ne ft b.key.1 with rfl | hne
    · rw [Function.update_self, length_overlay _ _ _ (by omega), h.largo]
    · rw [Function.update_of_ne hne, h.largo]
  · rw [paginaDe_update (by omega) hpagina hoff]
    rw [hlinea, ← h.representa.agrees i b hb]
    exact h.representa.put hb _

/-- Reading from the frame of a page reads the page. -/
theorem leerTramo_simula (h : Simula ram paginas contenido w plano)
    {b : Line Clave Bytes} (hb : linea ram w.memoria i = some b) (hoff : off + n ≤ ram.pageSize) :
    slice w.memoria.direccionBase (i * ram.pageSize + off) n =
      slice (plano b.key.1) (b.key.2 * ram.pageSize + off) n := by
  obtain ⟨f, hf, _, _, hvalor⟩ := linea_eq_some hb
  calc
    slice w.memoria.direccionBase (i * ram.pageSize + off) n = slice b.value off n := by
      rw [← hvalor, h.ordenada.bases i f hf, slice_slice _ hoff]
    _ = slice (paginaDe ram plano b.key) off n := by rw [h.representa.agrees i b hb]
    _ = slice (plano b.key.1) (b.key.2 * ram.pageSize + off) n := slice_slice _ hoff

/-- One round of the loop. -/
theorem accederMarco_simula (reloj : Reloj) (h : Simula ram paginas contenido w plano)
    (hi : i < ram.frames) {b : Line Clave Bytes} (hb : linea ram w.memoria i = some b)
    (hdir : a.base + desplaz < 2 ^ 64)
    (hclave : b.key = ((a.file, a.tag), (a.base + desplaz) / ram.pageSize))
    (hn : desplazamiento ram (a.base + desplaz) + n ≤ ram.pageSize)
    (hcabe : Cabe a plano salida desplaz n) :
    (accederMarco ram reloj a w i salida desplaz n).2 = salidaTras a plano salida desplaz n ∧
      Simula ram paginas contenido (accederMarco ram reloj a w i salida desplaz n).1
        (planoTras a plano desplaz n) := by
  have hptr : b.key.2 * ram.pageSize + desplazamiento ram (a.base + desplaz) =
      a.base + desplaz := by
    rw [hclave, desplazamiento_eq hdir]
    exact Nat.div_add_mod' _ _
  have hft : b.key.1 = (a.file, a.tag) := congrArg Prod.fst hclave
  unfold accederMarco salidaTras planoTras
  rw [h.ordenada.baseDe_eq hi]
  cases he : a.escribir with
  | true =>
    have hlen := length_slice a.entrada desplaz n (hcabe.entrada he)
    have hsim := escribirTramo_simula h hi hb
      (desplazamiento ram (a.base + desplaz)) (slice a.entrada desplaz n) (by omega)
    rw [hptr, hft] at hsim
    exact ⟨rfl, hsim.tocar reloj i⟩
  | false =>
    have hlee := leerTramo_simula h hb hn
    rw [hptr, hft] at hlee
    refine ⟨?_, h.tocar reloj i⟩
    simp [hlee]

/-- The loop does to the arrays and the caller's buffer what the range asks for. -/
theorem accederDesde_simula (reloj : Reloj) (hfiel : StorageFiel srv ram paginas contenido)
    (hmarcos : 0 < ram.frames) (a : Acceso) {rondas : ℕ} (hrondas : n ≤ rondas)
    (h : Simula ram paginas contenido w plano) (hcabe : Cabe a plano salida desplaz n) :
    ∃ w', accederDesde ram reloj srv a rondas w salida desplaz n =
        (w', salidaTras a plano salida desplaz n, true) ∧
      Simula ram paginas contenido w' (planoTras a plano desplaz n) := by
  induction rondas generalizing w plano salida desplaz n with
  | zero =>
    obtain rfl : n = 0 := Nat.le_zero.mp hrondas
    rw [planoTras_zero, salidaTras_zero]
    exact ⟨w, rfl, h⟩
  | succ rondas ih =>
    rcases Nat.eq_zero_or_pos n with rfl | hpos
    · rw [planoTras_zero, salidaTras_zero]
      exact ⟨w, if_pos rfl, h⟩
    · have hplano := hcabe.plano
      have hdirecciones := hfiel.direcciones (a.file, a.tag)
      rw [h.largo] at hplano
      have hdir : a.base + desplaz < 2 ^ 64 := by omega
      have hvalida : (a.base + desplaz) / ram.pageSize < paginas (a.file, a.tag) := by
        rw [Nat.div_lt_iff_lt_mul ram.page_pos]
        omega
      have hpagina := lt_of_lt_of_le hvalida (hfiel.numeros (a.file, a.tag))
      obtain ⟨hchunk, hle, htramo⟩ := tramo_spec ram (a.base + desplaz) hpos
      obtain ⟨w₁, i, htraer, hi, hsim, b, hb, hclave⟩ :=
        traerPagina_simula reloj hfiel hmarcos h hvalida
      unfold accederDesde
      rw [if_neg hpos.ne', nroPagina_eq hdir hpagina, htraer]
      have hresto := Nat.add_sub_cancel' hle
      have hcabe' : Cabe a plano salida desplaz (tramo ram (a.base + desplaz) n +
          (n - tramo ram (a.base + desplaz) n)) := by rwa [hresto]
      obtain ⟨hsalida, hsim'⟩ :=
        accederMarco_simula reloj hsim hi hb hdir hclave htramo hcabe'.anterior
      obtain ⟨w', hrec, hfinal⟩ := ih (by omega) hsim' hcabe'.siguiente
      rw [planoTras_planoTras hcabe', hresto] at hfinal
      rw [salidaTras_salidaTras hcabe', hresto] at hrec
      refine ⟨w', ?_, hfinal⟩
      simp only
      rw [hsalida]
      exact hrec

end Accesos

section Ejemplo

def ramChica : Ram := ⟨4, 2, .clockM, Nat.two_pos, by decide⟩

def relojParado : Reloj := ⟨fun _ => 0, monotone_const, fun _ => by decide⟩

def paginasChicas (ft : String × String) : ℕ := if ft = ("a", "b") then 3 else 0

def contenidoChico (st : ℕ → Bytes) (k : Clave) : Bytes := (st k.2 ++ [0, 0]).take 2

/-- A Storage with one File:Tag, a:b, of three pages of two bytes. -/
def servidorChico : Servidor (ℕ → Bytes) where
  readBlock := fun st nombre p =>
    (st, if nombre = "a:b" ∧ p < 3 then some ((st p ++ [0, 0]).take 2) else none)
  writeBlock := fun st f t p b =>
    if f = "a" ∧ t = "b" ∧ p < 3 then (Function.update st p b, true) else (st, false)
  create := fun st _ => (st, false)
  truncate := fun st _ _ => (st, false)
  tag := fun st _ _ => (st, false)
  commit := fun st _ => (st, false)
  flush := fun st f t => (st, decide (f = "a" ∧ t = "b"))
  delete := fun st _ _ => (st, true)

theorem paginasChicas_lt {f t : String} {p : ℕ} (h : p < paginasChicas (f, t)) :
    f = "a" ∧ t = "b" ∧ p < 3 := by
  unfold paginasChicas at h
  split_ifs at h with heq
  · exact ⟨(Prod.mk.inj heq).1, (Prod.mk.inj heq).2, h⟩
  · omega

theorem storageFiel_chico :
    StorageFiel servidorChico ramChica paginasChicas contenidoChico where
  numeros := by
    intro ft
    unfold paginasChicas
    split_ifs <;> decide
  direcciones := by
    intro ft
    unfold paginasChicas
    split_ifs <;> decide
  largo := by
    intro st k _
    change ((st k.2 ++ [0, 0]).take 2).length = 2
    rw [List.length_take, List.length_append]
    simp
  lectura := by
    intro st f t p hp
    obtain ⟨rfl, rfl, hlt⟩ := paginasChicas_lt hp
    refine ⟨st, ?_, fun _ _ => rfl⟩
    change (st, if "a" ++ ":" ++ "b" = "a:b" ∧ p < 3 then _ else none) = _
    rw [if_pos ⟨by decide, hlt⟩]
    rfl
  escritura := by
    intro st f t p b hp hb
    obtain ⟨rfl, rfl, hlt⟩ := paginasChicas_lt hp
    refine ⟨Function.update st p b, if_pos ⟨rfl, rfl, hlt⟩, fun k hk => ?_⟩
    obtain ⟨⟨f, t⟩, p'⟩ := k
    obtain ⟨rfl, rfl, _⟩ := paginasChicas_lt hk
    change (Function.update st p b p' ++ [0, 0]).take 2 = _
    rcases eq_or_ne p' p with rfl | hne
    · rw [Function.update_self, Function.update_self, ← show b.length = 2 from hb,
        List.take_left]
    · rw [Function.update_of_ne hne, Function.update_of_ne fun heq => hne (Prod.mk.inj heq).2]
      rfl

end Ejemplo

section Llamadas

/-- Calls on the Worker's memory. A read is given the caller's buffer. -/
inductive Llamada
  | leer (file tag : String) (base : ℕ) (salida : Bytes)
  | escribir (file tag : String) (base : ℕ) (entrada : Bytes)
  | flushFiletag (file tag : String)
  | flushTodos

/-- A call, with what it read and whether it returned 0. -/
def llamar (ram : Ram) (reloj : Reloj) (srv : Servidor σ) (w : Worker σ) :
    Llamada → Worker σ × Option Bytes × Bool
  | .leer file tag base salida =>
    let (w, leido, ok) :=
      accederMemoria ram reloj srv w ⟨file, tag, base, false, []⟩ salida.length salida
    (w, some leido, ok)
  | .escribir file tag base entrada =>
    let (w, _, ok) :=
      accederMemoria ram reloj srv w ⟨file, tag, base, true, entrada⟩ entrada.length []
    (w, none, ok)
  | .flushFiletag file tag =>
    let (w, ok) := flushFiletag ram srv w file tag
    (w, none, ok)
  | .flushTodos =>
    let (w, ok) := flushTodosFiletagsModificados ram srv w
    (w, none, ok)

/-- Calls one after the other, up to the first that does not return 0. -/
def correr (ram : Ram) (reloj : Reloj) (srv : Servidor σ) :
    Worker σ → List Llamada → Worker σ × List (Option Bytes) × Bool
  | w, [] => (w, [], true)
  | w, x :: xs => match llamar ram reloj srv w x with
    | (w, leido, true) =>
      let (w, leidos, ok) := correr ram reloj srv w xs
      (w, leido :: leidos, ok)
    | (w, _, false) => (w, [], false)

/-- The same call on flat arrays. -/
def llamarPlano (plano : Plano) : Llamada → Plano × Option Bytes
  | .leer file tag base salida => (plano, some (slice (plano (file, tag)) base salida.length))
  | .escribir file tag base entrada =>
    (Function.update plano (file, tag) (overlay (plano (file, tag)) base entrada), none)
  | .flushFiletag _ _ => (plano, none)
  | .flushTodos => (plano, none)

def correrPlano : Plano → List Llamada → Plano × List (Option Bytes)
  | plano, [] => (plano, [])
  | plano, x :: xs =>
    let (plano, leido) := llamarPlano plano x
    let (plano, leidos) := correrPlano plano xs
    (plano, leido :: leidos)

/-- The range of the call is inside the file. -/
def EnRango (ram : Ram) (paginas : String × String → ℕ) : Llamada → Prop
  | .leer file tag base salida => base + salida.length ≤ paginas (file, tag) * ram.pageSize
  | .escribir file tag base entrada => base + entrada.length ≤ paginas (file, tag) * ram.pageSize
  | .flushFiletag _ _ => True
  | .flushTodos => True

theorem llamar_simula (reloj : Reloj) (hfiel : StorageFiel srv ram paginas contenido)
    (hmarcos : 0 < ram.frames) (h : Simula ram paginas contenido w plano) {x : Llamada}
    (hx : EnRango ram paginas x) :
    ∃ w', llamar ram reloj srv w x = (w', (llamarPlano plano x).2, true) ∧
      Simula ram paginas contenido w' (llamarPlano plano x).1 := by
  cases x with
  | leer file tag base salida =>
    have hplano : base + salida.length ≤ (plano (file, tag)).length := h.largo _ ▸ hx
    have hcabe : Cabe ⟨file, tag, base, false, []⟩ plano salida 0 salida.length :=
      ⟨hplano, fun he => absurd he (by simp), fun _ => by omega⟩
    obtain ⟨w', hacceso, hsim⟩ := accederDesde_simula reloj hfiel hmarcos _ (le_refl _) h hcabe
    have hlen := length_slice (plano (file, tag)) base salida.length hplano
    refine ⟨w', ?_, hsim⟩
    simp only [llamar, accederMemoria, hacceso]
    change (w', some (overlay salida 0 (slice (plano (file, tag)) base salida.length)), true) = _
    rw [overlay_whole hlen]
    rfl
  | escribir file tag base entrada =>
    have hplano : base + entrada.length ≤ (plano (file, tag)).length := h.largo _ ▸ hx
    have hcabe : Cabe ⟨file, tag, base, true, entrada⟩ plano [] 0 entrada.length :=
      ⟨hplano, fun _ => by simp, fun he => absurd he (by simp)⟩
    obtain ⟨w', hacceso, hsim⟩ := accederDesde_simula reloj hfiel hmarcos _ (le_refl _) h hcabe
    have hplano' : planoTras ⟨file, tag, base, true, entrada⟩ plano 0 entrada.length =
        (llamarPlano plano (.escribir file tag base entrada)).1 := by
      change Function.update plano (file, tag)
        (overlay (plano (file, tag)) base (slice entrada 0 entrada.length)) = _
      rw [slice_self]
      rfl
    rw [hplano'] at hsim
    refine ⟨w', ?_, hsim⟩
    simp only [llamar, accederMemoria, hacceso]
    rfl
  | flushFiletag file tag =>
    obtain ⟨hend, hsim, _⟩ := flushFiletag_simula hfiel h file tag
    refine ⟨_, ?_, hsim⟩
    unfold llamar
    simp only [hend]
    rfl
  | flushTodos =>
    obtain ⟨hend, hsim, _⟩ := flushTodos_simula hfiel h
    refine ⟨_, ?_, hsim⟩
    unfold llamar
    simp only [hend]
    rfl

theorem correr_simula (reloj : Reloj) (hfiel : StorageFiel srv ram paginas contenido)
    (hmarcos : 0 < ram.frames) (h : Simula ram paginas contenido w plano) {xs : List Llamada}
    (hxs : ∀ x ∈ xs, EnRango ram paginas x) :
    ∃ w', correr ram reloj srv w xs = (w', (correrPlano plano xs).2, true) ∧
      Simula ram paginas contenido w' (correrPlano plano xs).1 := by
  induction xs generalizing w plano with
  | nil => exact ⟨w, rfl, h⟩
  | cons x xs ih =>
    obtain ⟨w₁, hllamar, hsim⟩ :=
      llamar_simula reloj hfiel hmarcos h (hxs x (List.mem_cons_self ..))
    obtain ⟨w', hrun, hfinal⟩ := ih hsim fun y hy => hxs y (List.mem_cons_of_mem _ hy)
    refine ⟨w', ?_, hfinal⟩
    unfold correr
    rw [hllamar]
    simp only [hrun]
    rfl

/-- What Storage holds of each File:Tag, as one array. -/
def planoDe (paginas : String × String → ℕ) (contenido : Clave → Bytes) : Plano := fun ft =>
  (List.range (paginas ft)).flatMap fun p => contenido (ft, p)

/-- At the start the memory is empty, so the arrays are what Storage holds. -/
theorem simula_inicial (hfiel : StorageFiel srv ram paginas contenido) (st : σ) :
    Simula ram paginas contenido ⟨inicializarMemoria ram, st⟩
      (planoDe paginas (contenido st)) where
  ordenada := ordenada_inicial ram
  largo := fun ft => (slice_flatMap_range fun p hp => hfiel.largo st (ft, p) hp).1
  representa := by
    rw [linea_inicial]
    refine represents_empty fun k hk => ?_
    have hpaginas := slice_flatMap_range (g := fun p => contenido st (k.1, p)) (n := paginas k.1)
      fun p hp => hfiel.largo st (k.1, p) hp
    exact (hpaginas.2 k.2 hk).symm

/-- Every call of `xs` returns 0, each read gives the bytes of the flat arrays, and
the implicit FLUSH afterwards leaves the arrays in Storage, on every page. -/
def Transparente (ram : Ram) (reloj : Reloj) (srv : Servidor σ) (paginas : String × String → ℕ)
    (contenido : σ → Clave → Bytes) (st : σ) (xs : List Llamada) : Prop :=
  ∃ w, correr ram reloj srv ⟨inicializarMemoria ram, st⟩ xs =
      (w, (correrPlano (planoDe paginas (contenido st)) xs).2, true) ∧
    (flushTodosFiletagsModificados ram srv w).2 = true ∧
    ∀ k, Valida paginas k → contenido (flushTodosFiletagsModificados ram srv w).1.storage k =
      paginaDe ram (correrPlano (planoDe paginas (contenido st)) xs).1 k

/-- Paging is transparent, whatever the frames, the algorithm and the clock. -/
theorem paginado_transparente (reloj : Reloj) (hfiel : StorageFiel srv ram paginas contenido)
    (hmarcos : 1 ≤ ram.frames) (st : σ) (xs : List Llamada)
    (hxs : ∀ x ∈ xs, EnRango ram paginas x) :
    Transparente ram reloj srv paginas contenido st xs := by
  obtain ⟨w, hrun, hsim⟩ := correr_simula reloj hfiel hmarcos (simula_inicial hfiel st) hxs
  obtain ⟨hend, _, hstorage⟩ := flushTodos_simula hfiel hsim
  exact ⟨w, hrun, hend, hstorage⟩

/-- Three pages through two frames, with a page written back to make room. -/
theorem paginado_transparente_chico :
    Transparente ramChica relojParado servidorChico paginasChicas contenidoChico (fun _ => [])
      [.escribir "a" "b" 1 [7, 8, 9], .leer "a" "b" 0 [0, 0, 0, 0, 0, 0]] :=
  paginado_transparente relojParado storageFiel_chico (by decide) _ _ (by
    intro x hx
    rcases List.mem_pair.mp hx with rfl | rfl
    · exact (by decide : 1 + 3 ≤ 3 * 2)
    · exact (by decide : 0 + 6 ≤ 3 * 2))

end Llamadas

end MasterOfFiles.TransparentPaging
