import MasterOfFiles.PlainNames
import MasterOfFiles.ReachableStates

/-!
The allocation bitmap against the hard links. A bit is set together with the
link that uses it and is never cleared afterwards, so a request breaks the
agreement exactly when it drops a link to a block other than block0000. The requests
are those whose names rm takes as they are.
-/
namespace MasterOfFiles.BitmapExactness

open BlockNames StorageState StorageFiles StorageOperations PartialRuns
open BlockZero TruncateEffects RequestEffects ReachableStates PlainNames

variable {md5 : ByteBuffers.Bytes → String} {sb : Superbloque} {s s' : Storage} {f t : String}

/-- Between requests, the bits set are block0000's and those of linked blocks. -/
def BitmapExact (sb : Superbloque) (s : Storage) : Prop :=
  ∀ n < cantBlock sb, s.bitmap[n]? = some true ↔
    n = 0 ∨ ∃ r, s.disco.links r = some (nombreBloqueFisico n)

section Enlaces

theorem bitmapExact_congr (hexact : BitmapExact sb s) (hbitmap : s'.bitmap = s.bitmap)
    (hlinks : s'.disco.links = s.disco.links) : BitmapExact sb s' := by
  unfold BitmapExact
  rw [hbitmap, hlinks]
  exact hexact

/-- New links to block0000 ask for no bit. -/
theorem bitmapExact_enlazarCero (hexact : BitmapExact sb s) {rt : RutaTag} {nombres : List String}
    (hbitmap : s'.bitmap = s.bitmap)
    (hlinks : s'.disco.links = enlazarCero s.disco.links rt nombres) : BitmapExact sb s' := by
  intro n hn
  rw [hbitmap, hlinks, hexact n hn]
  refine or_congr_right' fun hne => ?_
  constructor
  · rintro ⟨r, hr⟩
    refine ⟨r, ?_⟩
    unfold enlazarCero
    rw [if_neg (by simp [hr]), hr]
  · rintro ⟨r, hr⟩
    refine ⟨r, ?_⟩
    unfold enlazarCero at hr
    split_ifs at hr with hnew
    · have hzero := (nombreBloqueFisico_eq_inicial_iff n).mp (Option.some.inj hr).symm
      exact absurd hzero hne
    · exact hr

/-- Dropping the links `R` keeps the bitmap exact when all of them are to block0000. -/
theorem bitmapExact_soltar_iff (h : Coherente sb s) (hexact : BitmapExact sb s)
    (hbitmap : s'.bitmap = s.bitmap) {R : RutaBlock → Prop}
    (hquita : ∀ r, R r → s'.disco.links r = none)
    (hqueda : ∀ r, ¬ R r → s'.disco.links r = s.disco.links r) :
    BitmapExact sb s' ↔
      ∀ r b, R r → s.disco.links r = some b → b = bloqueFisicoInicial := by
  have hsub : ∀ r b, s'.disco.links r = some b → ¬ R r ∧ s.disco.links r = some b := by
    intro r b hr
    by_cases hR : R r
    · rw [hquita r hR] at hr
      simp at hr
    · exact ⟨hR, by rw [← hqueda r hR, hr]⟩
  constructor
  · intro hexact' r b hR hr
    by_contra hb
    obtain ⟨k, hk, rfl, hbit⟩ := h.enlace_ocupado r b hr
    rw [← hbitmap] at hbit
    rcases (hexact' k hk).mp hbit with rfl | ⟨r', hr'⟩
    · exact hb nombreBloqueFisico_zero
    · obtain ⟨hR', hlink'⟩ := hsub r' _ hr'
      exact hR' (h.enlace_unico r r' _ hr hlink' hb ▸ hR)
  · intro hcero n hn
    rw [hbitmap, hexact n hn]
    refine or_congr_right' fun hne => ?_
    constructor
    · rintro ⟨r, hr⟩
      by_cases hR : R r
      · exact absurd ((nombreBloqueFisico_eq_inicial_iff n).mp (hcero r _ hR hr)) hne
      · exact ⟨r, by rw [hqueda r hR, hr]⟩
    · rintro ⟨r, hr⟩
      exact ⟨r, (hsub r _ hr).2⟩

theorem bitmapExact_ampliar (hexact : BitmapExact sb s) {nro : ℤ} {k : ℕ}
    (ha : Ampliable sb s f t nro k) : BitmapExact sb (ampliar s f t nro k) := by
  have hlength : k < s.bitmap.length := (List.getElem?_eq_some_iff.mp (bit_of_libre ha.libre)).1
  intro n hn
  change (s.bitmap.set k true)[n]? = some true ↔ n = 0 ∨ ∃ r, Function.update s.disco.links
    (rutaBlockLogico f t (crearNombreBloqueLogico nro)) (some (nombreBloqueFisico k)) r =
      some (nombreBloqueFisico n)
  rcases eq_or_ne k n with rfl | hne
  · rw [List.getElem?_set_self hlength]
    exact iff_of_true rfl (Or.inr ⟨_, Function.update_self ..⟩)
  · rw [List.getElem?_set_ne hne, hexact n hn]
    refine or_congr_right ⟨?_, ?_⟩
    · rintro ⟨r, hr⟩
      refine ⟨r, ?_⟩
      rw [Function.update_of_ne, hr]
      rintro rfl
      rw [ha.sin_enlace] at hr
      simp at hr
    · rintro ⟨r, hr⟩
      rcases eq_or_ne r (rutaBlockLogico f t (crearNombreBloqueLogico nro)) with rfl | hr'
      · rw [Function.update_self] at hr
        exact absurd (nombreBloqueFisico_injective (Option.some.inj hr)) hne
      · rw [Function.update_of_ne hr'] at hr
        exact ⟨r, hr⟩

theorem bitmapExact_terminarTruncate_iff (f t : String) (tamanio : ℤ) :
    BitmapExact sb (terminarTruncate s f t tamanio) ↔ BitmapExact sb s := by
  obtain ⟨mc, hmc⟩ := terminarTruncate_eq s f t tamanio
  rw [hmc]
  exact Iff.rfl

end Enlaces

section Corrida

/-- A shrinking TRUNCATE and a DELETE drop links to block0000 only. -/
def SueltaSoloCero (sb : Superbloque) (s : Storage) : Solicitud → Prop
  | .truncate f t tamanio => ∀ tag, Truncable sb s f t tamanio tag →
      ∀ bl ∈ tag.listaBlockLogicos.drop
        (tag.listaBlockLogicos.length - bloquesQueLibera sb tag tamanio),
      ∀ b, s.disco.links (rutaBlockLogico f t bl.nombreBlock) = some b → b = bloqueFisicoInicial
  | .delete f t => (buscarTag s f t).isSome →
      ∀ r b, directorio r = rutaTag f t → s.disco.links r = some b → b = bloqueFisicoInicial
  | _ => True

theorem bitmapExact_truncate_iff (h : Coherente sb s) (hexact : BitmapExact sb s) {tamanio : ℤ}
    {c : ℤ} (hop : operacionTruncateFile sb s f t tamanio = .ok (s', c)) :
    BitmapExact sb s' ↔ SueltaSoloCero sb s (.truncate f t tamanio) := by
  rcases truncate_casos h hop with ⟨rfl, hn⟩ | ⟨tag, ht, ⟨hlt, hs'⟩ | ⟨_, rfl⟩⟩
  · exact iff_of_true hexact fun tag htag => absurd htag (hn tag)
  · have hlibera : bloquesQueLibera sb tag tamanio = 0 := by
      unfold bloquesQueLibera
      omega
    have hcrece : BitmapExact sb (agrandado sb s f t tag tamanio) :=
      (agrandar_regla h ht.abierto hexact
        (fun s₂ nro k _ _ hQ ha => bitmapExact_ampliar hQ ha) _ _).2.2
    refine iff_of_true ?_ ?_
    · rcases hs' with rfl | rfl
      · exact hcrece
      · exact (bitmapExact_terminarTruncate_iff f t tamanio).mpr hcrece
    · intro tag' ht' bl hbl
      obtain rfl := ht.unico ht'
      rw [hlibera, Nat.sub_zero, List.drop_length] at hbl
      exact absurd hbl List.not_mem_nil
  · rw [bitmapExact_terminarTruncate_iff]
    have hlinks := links_reducirVeces ht.existe (bloquesQueLibera sb tag tamanio)
    rw [bitmapExact_soltar_iff h hexact (bitmap_reducirVeces s f t _)
      (fun r => (hlinks r).1) fun r => (hlinks r).2]
    constructor
    · intro hcero tag' ht' bl hbl b hb
      obtain rfl := ht.unico ht'
      exact hcero _ b ⟨bl, hbl, rfl⟩ hb
    · rintro hcero r b ⟨bl, hbl, rfl⟩ hb
      exact hcero tag ht bl hbl b hb

theorem bitmapExact_paso_iff {x : Solicitud} (h : Coherente sb s) (hexact : BitmapExact sb s)
    (hop : paso md5 sb s x = .ok s') : BitmapExact sb s' ↔ SueltaSoloCero sb s x := by
  by_cases htruncate : ∃ f t tamanio, x = .truncate f t tamanio
  · obtain ⟨f, t, tamanio, rfl⟩ := htruncate
    obtain ⟨c, hop⟩ := paso_truncate hop
    exact bitmapExact_truncate_iff h hexact hop
  · by_cases hdelete : ∃ f t, x = .delete f t
    · obtain ⟨f, t, rfl⟩ := hdelete
      rcases paso_delete h hop with ⟨rfl, hnone⟩ | ⟨tag, htag, rfl⟩
      · exact iff_of_true hexact fun hsome => by simp [hnone] at hsome
      · have hlinks := links_eliminado s f t tag
        have hbitmap : (eliminado s f t tag).bitmap = s.bitmap := rfl
        rw [bitmapExact_soltar_iff h hexact (R := fun r => directorio r = rutaTag f t) hbitmap
          (fun r hr => by rw [hlinks, if_pos hr]) fun r hr => by rw [hlinks, if_neg hr]]
        constructor
        · exact fun hcero _ r b hdir hb => hcero r b hdir hb
        · exact fun hcero r b hdir hb => hcero (by rw [htag]; rfl) r b hdir hb
    · have hc : Conserva md5 sb (BitmapExact sb) x := {
        crear := fun _ _ _ _ _ _ hQ _ => bitmapExact_congr hQ rfl rfl
        ampliar := fun _ f t tamanio _ _ heq => absurd ⟨f, t, tamanio, heq⟩ htruncate
        reducir := fun _ f t tamanio heq => absurd ⟨f, t, tamanio, heq⟩ htruncate
        terminar := fun _ f t tamanio heq => absurd ⟨f, t, tamanio, heq⟩ htruncate
        copiar := by
          intro s₁ _ _ f t tag mc _ _ hQ _
          refine bitmapExact_enlazarCero hQ ?_ rfl
          change (asegurarFile s₁ f).bitmap = s₁.bitmap
          rw [asegurarFile_eq]
        commitear := fun _ _ _ _ _ _ _ _ _ hQ _ _ _ _ => bitmapExact_congr hQ rfl rfl
        escribir := fun _ _ _ _ _ _ _ _ _ hQ _ => bitmapExact_congr hQ rfl rfl
        eliminar := fun _ f t _ heq => absurd ⟨f, t, heq⟩ hdelete }
      refine iff_of_true (hc.paso h hexact hop).2 ?_
      unfold SueltaSoloCero
      split
      · next f t tamanio => exact absurd ⟨f, t, tamanio, rfl⟩ htruncate
      · next f t => exact absurd ⟨f, t, rfl⟩ hdelete
      · trivial

theorem bitmapExact_freshStart (sb : Superbloque) : BitmapExact sb (freshStart sb) := by
  intro n _
  obtain ⟨mc, hmc⟩ := freshStart_eq sb
  have hbitmap : (freshStart sb).bitmap = bitmapFreshStart (cantBlock sb) := by rw [hmc]
  rw [hbitmap, bitmapFreshStart_iff (cantBlock_pos sb)]
  constructor
  · exact Or.inl
  · rintro (hzero | ⟨r, hr⟩)
    · exact hzero
    · exact (nombreBloqueFisico_eq_inicial_iff n).mp (links_freshStart hr).2

/-- The bitmap is exact all along a run of plain requests just when no request of the run
drops a link to a block other than block0000. -/
theorem bitmapExact_alongRun_iff (md5 : ByteBuffers.Bytes → String) (sb : Superbloque)
    {raiz : ByteBuffers.Bytes} (xs : List (Pedido raiz)) :
    AlongRun (paso md5 sb) (BitmapExact sb) (freshStart sb) xs.unattach ↔
      EachStep (paso md5 sb) (SueltaSoloCero sb) (freshStart sb) xs.unattach := by
  refine alongRun_iff_eachStep (I := Coherente sb) (A := fun _ => True) ?_ ?_
    (coherente_freshStart sb) (bitmapExact_freshStart sb) xs.unattach fun _ _ => trivial
  · exact fun s x s' _ hcoh hexact hop => bitmapExact_paso_iff hcoh hexact hop
  · exact fun s x s' _ hcoh _ _ hop => coherente_paso hcoh hop

/-- Growing a Tag by a block and shrinking it back leaks the block. -/
theorem not_bitmapExact_truncate :
    ¬ ∀ md5 sb s, Alcanzable md5 sb s → BitmapExact sb s := by
  intro h
  have hexact := h hashLegible superbloqueChico _ (alcanzable_estadoTras hashLegible
    superbloqueChico [.create "a" "b", .truncate "a" "b" 2, .truncate "a" "b" 0])
  have hlinks : (estadoTras hashLegible superbloqueChico
      [.create "a" "b", .truncate "a" "b" 2, .truncate "a" "b" 0]).disco.links =
      Function.update (Function.update (Function.update (fun _ => none) rutaInicial
        (some "block0000")) ("a", "b", "000000.dat") (some "block0001"))
        ("a", "b", "000000.dat") none := rfl
  rcases (hexact 1 (by decide)).mp (by decide) with hzero | ⟨r, hr⟩
  · exact absurd hzero (by decide)
  · rw [hlinks] at hr
    rcases eq_or_ne r ("a", "b", "000000.dat") with rfl | hne
    · rw [Function.update_self] at hr
      simp at hr
    · rw [Function.update_of_ne hne, Function.update_of_ne hne] at hr
      rcases eq_or_ne r rutaInicial with rfl | hne'
      · rw [Function.update_self] at hr
        exact absurd hr (by decide)
      · rw [Function.update_of_ne hne'] at hr
        simp at hr

end Corrida

end MasterOfFiles.BitmapExactness
