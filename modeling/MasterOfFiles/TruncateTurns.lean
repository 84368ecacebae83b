import MasterOfFiles.RetainedBlocks

/-!
The two loops of TRUNCATE from any state whose block files are those of the
superblock, whatever the links go to. They change the links of the names they link
or unlink, the Tag's entry, counts and bits, and nothing else; the growth loop
stops early just when the free bits run out before its last turn.
-/
namespace MasterOfFiles.TruncateTurns

open BlockNames StorageState StorageOperations TagLookups BlockZero TruncateEffects
open TruncateOutcomes RetainedBlocks

variable {sb : Superbloque} {s s' s'' : Storage} {f t : String}

/-- Of the files, directories and links, only the links of these names of the Tag change. -/
structure SoloEnlaces (f t : String) (nombres : List String) (s s' : Storage) : Prop where
  archivos : s'.disco.physicalBlocks = s.disco.physicalBlocks
  carpetas : s'.disco.tagDirs = s.disco.tagDirs
  metadata : s'.disco.metadataConfig = s.disco.metadataConfig
  enlaces : ∀ r, (∀ nombre ∈ nombres, r ≠ rutaBlockLogico f t nombre) →
    s'.disco.links r = s.disco.links r

namespace SoloEnlaces

variable {nombres nombres' : List String}

theorem refl (f t : String) (s : Storage) : SoloEnlaces f t [] s s :=
  ⟨rfl, rfl, rfl, fun _ _ => rfl⟩

theorem trans (h : SoloEnlaces f t nombres s s') (h' : SoloEnlaces f t nombres' s' s'') :
    SoloEnlaces f t (nombres ++ nombres') s s'' where
  archivos := h'.archivos.trans h.archivos
  carpetas := h'.carpetas.trans h.carpetas
  metadata := h'.metadata.trans h.metadata
  enlaces := by
    intro r hr
    rw [h'.enlaces r fun nombre hn => hr nombre (List.mem_append_right _ hn),
      h.enlaces r fun nombre hn => hr nombre (List.mem_append_left _ hn)]

theorem archivosCompletos (h : SoloEnlaces f t nombres s s') (hs : ArchivosCompletos sb s) :
    ArchivosCompletos sb s' := by
  intro k
  rw [h.archivos]
  exact hs k

theorem enlaces_otro (h : SoloEnlaces f t nombres s s') {r : RutaBlock}
    (hr : directorio r ≠ rutaTag f t) : s'.disco.links r = s.disco.links r := by
  refine h.enlaces r fun nombre _ heq => hr ?_
  rw [heq, directorio_rutaBlockLogico]

end SoloEnlaces

section Agrandar

/-- The free bits run out before the last of the `m` turns. -/
def SinBits (sb : Superbloque) (s : Storage) (f t : String) (nro : ℤ) (m : ℕ) : Prop :=
  0 < m ∧ s.bitmap.count false ≤ (nombresALinkear sb s f t nro (m - 1)).length

theorem count_ocupado {bitmap : List Bool} {k : ℕ} (hbit : bitmap[k]? = some false) :
    (bitmapMarcarBloqueOcupado bitmap k).count false + 1 = bitmap.count false := by
  obtain ⟨hlength, _⟩ := List.getElem?_eq_some_iff.mp hbit
  have hcount := count_ocupar hbit hlength
  have hlargo : (bitmapMarcarBloqueOcupado bitmap k).length = bitmap.length := List.length_set
  rwa [List.take_length, ← hlargo, List.take_length] at hcount

theorem count_libre_pos {bitmap : List Bool} {k : ℕ}
    (hlibre : bitmapEncontrarBloqueLibre bitmap = some k) : 0 < bitmap.count false :=
  List.count_pos_iff.mpr (List.mem_of_getElem? (bit_of_libre hlibre))

theorem sinBits_ampliar {nro : ℤ} {k : ℕ} (ha : Ampliable sb s f t nro k) (m : ℕ) :
    SinBits sb s f t nro (m + 1) ↔ SinBits sb (ampliar s f t nro k) f t (nro + 1) m := by
  have hcount := count_ocupado (bit_of_libre ha.libre)
  have hbitmap : (ampliar s f t nro k).bitmap = bitmapMarcarBloqueOcupado s.bitmap k := rfl
  unfold SinBits
  rw [hbitmap]
  cases m with
  | zero =>
    rw [Nat.add_sub_cancel, nombresALinkear_zero, List.length_nil]
    omega
  | succ m =>
    rw [Nat.add_sub_cancel, Nat.add_sub_cancel, nombresALinkear_ampliar ha, List.length_cons]
    omega

theorem sinBits_salteado {nro : ℤ} {k : ℕ} (hlibre : bitmapEncontrarBloqueLibre s.bitmap = some k)
    (hn : ¬Ampliable sb s f t nro k) (m : ℕ) :
    SinBits sb s f t nro (m + 1) ↔ SinBits sb s f t (nro + 1) m := by
  have hpos := count_libre_pos hlibre
  unfold SinBits
  cases m with
  | zero =>
    rw [Nat.add_sub_cancel, nombresALinkear_zero, List.length_nil]
    omega
  | succ m =>
    rw [Nat.add_sub_cancel, Nat.add_sub_cancel, nombresALinkear_salteado hlibre hn]
    omega

/-- The growth loop returns early just when it runs out of bits. -/
theorem agrandar_eq_false_iff (h : ArchivosCompletos sb s) (nro : ℤ) (m : ℕ) :
    (agrandar s f t nro m).2 = false ↔ SinBits sb s f t nro m := by
  induction m generalizing s nro with
  | zero => exact iff_of_false Bool.noConfusion fun hsin => lt_irrefl 0 hsin.1
  | succ m ih =>
    cases hlibre : bitmapEncontrarBloqueLibre s.bitmap with
    | none =>
      rw [agrandar_succ_agotado hlibre]
      refine iff_of_true rfl ⟨Nat.succ_pos m, ?_⟩
      have hcero : s.bitmap.count false = 0 := by
        refine List.count_eq_zero.mpr fun hmem => ?_
        have hocupado := List.findIdx?_eq_none_iff.mp hlibre false hmem
        exact absurd hocupado (by decide)
      rw [hcero]
      exact Nat.zero_le _
    | some k =>
      by_cases ha : Ampliable sb s f t nro k
      · rw [agrandar_succ_ampliable h ha, sinBits_ampliar ha]
        exact ih (s := ampliar s f t nro k) h (nro + 1)
      · rw [agrandar_succ_salteado h hlibre ha, sinBits_salteado hlibre ha]
        exact ih h (nro + 1)

/-- However it ends, the growth loop has added the names it links. -/
theorem agrandar_efecto (h : ArchivosCompletos sb s) (nro : ℤ) (m : ℕ) :
    (agrandar s f t nro m).1.listaFiles =
        (modificarTag s f t (agregarBloques (nombresALinkear sb s f t nro m))).listaFiles ∧
      (agrandar s f t nro m).1.hashIndexConfig = s.hashIndexConfig ∧
      SoloEnlaces f t (nombresALinkear sb s f t nro m) s (agrandar s f t nro m).1 := by
  have hself : (modificarTag s f t (agregarBloques [])).listaFiles = s.listaFiles :=
    congrArg Storage.listaFiles (modificarTag_eq_self s fun _ _ => rfl)
  induction m generalizing s nro with
  | zero =>
    rw [nombresALinkear_zero]
    exact ⟨hself.symm, rfl, SoloEnlaces.refl f t s⟩
  | succ m ih =>
    cases hlibre : bitmapEncontrarBloqueLibre s.bitmap with
    | none =>
      rw [agrandar_succ_agotado hlibre, nombresALinkear_agotado hlibre]
      exact ⟨hself.symm, rfl, SoloEnlaces.refl f t s⟩
    | some k =>
      by_cases ha : Ampliable sb s f t nro k
      · have huno : SoloEnlaces f t [crearNombreBloqueLogico nro] s (ampliar s f t nro k) := by
          refine ⟨rfl, rfl, rfl, fun r hr => ?_⟩
          rw [links_ampliar, Function.update_of_ne (hr _ (List.mem_singleton.mpr rfl))]
        obtain ⟨hlista, hindice, hsolo⟩ := ih (s := ampliar s f t nro k) h (nro + 1)
          (congrArg Storage.listaFiles (modificarTag_eq_self _ fun _ _ => rfl))
        rw [agrandar_succ_ampliable h ha, nombresALinkear_ampliar ha]
        refine ⟨?_, hindice, huno.trans hsolo⟩
        exact listaFiles_comp (nameTag_agregarBloques _) (listaFiles_ampliar s f t nro k) hlista
      · rw [agrandar_succ_salteado h hlibre ha, nombresALinkear_salteado hlibre ha]
        exact ih h (nro + 1) hself

theorem usados_agregarBloques (nombres : List String) (tag : Tag) :
    (agregarBloques nombres tag).metadata.blocksFisicosUsados =
      if nombres = [] then tag.metadata.blocksFisicosUsados
      else agregarUsado tag.metadata.blocksFisicosUsados "0" := by
  have hdos : ∀ usados, agregarUsado (agregarUsado usados "0") "0" = agregarUsado usados "0" := by
    intro usados
    refine if_pos ?_
    unfold agregarUsado
    split_ifs with hmem
    · exact hmem
    · exact List.mem_append_right _ (List.mem_singleton.mpr rfl)
  induction nombres generalizing tag with
  | nil => rfl
  | cons nombre nombres ih =>
    have htail := ih (agregarBloqueLogico nombre tag)
    rw [if_neg (List.cons_ne_nil nombre nombres)]
    refine htail.trans ?_
    split_ifs
    · rfl
    · exact hdos _

end Agrandar

section Achicar

/-- The names of the last `n` blocks of the Tag. -/
def ultimos (n : ℕ) (tag : Tag) : List String :=
  (tag.listaBlockLogicos.drop (tag.listaBlockLogicos.length - n)).map BlockLogico.nombreBlock

theorem ultimos_concat {tag : Tag} {bls : List BlockLogico} {bl : BlockLogico}
    (h : tag.listaBlockLogicos = bls ++ [bl]) (n : ℕ) :
    ultimos (n + 1) tag =
      (bls.drop (bls.length - n)).map BlockLogico.nombreBlock ++ [bl.nombreBlock] := by
  rw [ultimos, h, drop_concat_succ, List.map_append]
  rfl

theorem ultimos_succ (n : ℕ) (tag : Tag) :
    ultimos (n + 1) tag = ultimos n (quitarUltimo tag) ++ ultimos 1 tag := by
  cases hlast : tag.listaBlockLogicos.getLast? with
  | none =>
    have hnil := List.getLast?_eq_none_iff.mp hlast
    simp [ultimos, quitarUltimo, hnil]
  | some bl =>
    obtain ⟨bls, hbls⟩ := List.getLast?_eq_some_iff.mp hlast
    rw [ultimos_concat hbls, ultimos_concat hbls, ultimos, quitarUltimo, hbls,
      List.dropLast_concat, Nat.sub_zero, List.drop_length]
    rfl

theorem achicarUno_efecto {tag : Tag} (htag : buscarTag s f t = some tag)
    (hop : achicarUno s f t = .ok s') :
    s'.listaFiles = (modificarTag s f t quitarUltimo).listaFiles ∧
      s'.hashIndexConfig = s.hashIndexConfig ∧ SoloEnlaces f t (ultimos 1 tag) s s' := by
  unfold achicarUno at hop
  rw [htag, Option.bind_some] at hop
  cases hlast : tag.listaBlockLogicos.getLast? with
  | none =>
    have hnil := List.getLast?_eq_none_iff.mp hlast
    simp only [hlast, Except.ok.injEq] at hop
    obtain rfl := hop
    have hself : modificarTag s f t quitarUltimo = s := by
      refine modificarTag_eq_self s fun tag' htag' => ?_
      obtain rfl := Option.some.inj (htag.symm.trans htag')
      unfold quitarUltimo
      rw [hnil, List.dropLast_nil, ← hnil]
    rw [hself, ultimos, hnil]
    exact ⟨rfl, rfl, SoloEnlaces.refl f t s⟩
  | some bl =>
    obtain ⟨bls, hbls⟩ := List.getLast?_eq_some_iff.mp hlast
    have hultimo : ultimos 1 tag = [bl.nombreBlock] := by
      rw [ultimos_concat hbls, Nat.sub_zero, List.drop_length]
      rfl
    have hunlink : ∀ r, (∀ nombre ∈ [bl.nombreBlock], r ≠ rutaBlockLogico f t nombre) →
        (s.disco.unlink (rutaBlockLogico f t bl.nombreBlock)).links r = s.disco.links r :=
      fun r hr => Function.update_of_ne (hr _ (List.mem_singleton.mpr rfl)) ..
    rw [hultimo]
    simp only [hlast] at hop
    split at hop
    · obtain rfl := Except.ok.inj hop
      exact ⟨rfl, rfl, rfl, rfl, rfl, fun _ _ => rfl⟩
    · split_ifs at hop
      obtain rfl := Except.ok.inj hop
      exact ⟨rfl, rfl, rfl, rfl, rfl, hunlink⟩

/-- A shrink loop that returns has dropped the last blocks. -/
theorem achicar_efecto {n : ℕ} {tag : Tag} (htag : buscarTag s f t = some tag)
    (hop : achicar s f t n = .ok s') :
    s'.listaFiles = (modificarTag s f t (quitarBloques n)).listaFiles ∧
      s'.hashIndexConfig = s.hashIndexConfig ∧ SoloEnlaces f t (ultimos n tag) s s' := by
  induction n generalizing s tag with
  | zero =>
    obtain rfl := Except.ok.inj hop
    have hself : modificarTag s f t (quitarBloques 0) = s := by
      refine modificarTag_eq_self s fun tag _ => ?_
      rw [quitarBloques, Nat.sub_zero, List.take_length]
    rw [hself, ultimos, Nat.sub_zero, List.drop_length]
    exact ⟨rfl, rfl, SoloEnlaces.refl f t s⟩
  | succ n ih =>
    unfold achicar at hop
    cases huno : achicarUno s f t with
    | error e => simp [huno] at hop
    | ok s₁ =>
      simp only [huno] at hop
      obtain ⟨hlista₁, hindice₁, hsolo₁⟩ := achicarUno_efecto htag huno
      have htag₁ : buscarTag s₁ f t = some (quitarUltimo tag) := by
        rw [buscarTag_congr hlista₁, buscarTag_modificarTag_self s nameTag_quitarUltimo, htag,
          Option.map_some]
      obtain ⟨hlista, hindice, hsolo⟩ := ih htag₁ hop
      have hcomp := listaFiles_comp nameTag_quitarUltimo hlista₁ hlista
      rw [quitarBloques_quitarUltimo] at hcomp
      refine ⟨hcomp, hindice.trans hindice₁, ?_⟩
      have hdos := hsolo₁.trans hsolo
      refine ⟨hdos.archivos, hdos.carpetas, hdos.metadata, fun r hr => ?_⟩
      refine hdos.enlaces r fun nombre hnombre => hr nombre ?_
      rw [ultimos_succ]
      exact List.mem_append.mpr (List.mem_append.mp hnombre).symm

end Achicar

end MasterOfFiles.TruncateTurns
