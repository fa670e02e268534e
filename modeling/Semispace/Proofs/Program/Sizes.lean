import Semispace.Proofs.Program.Mappings

/-!
# Sizes that are refused late

A configuration is refused when its heap has more bytes than there are addresses. The halves of a heap that
is not refused are rounded up to whole pages, and just below the bound the two of them have more bytes
than that after all. Such a size ends the process where others are refused (`late_sizes`).
-/

namespace Semispace

/-! ## Rounding -/

section
variable {page n m : Nat}

/-- Different multiples of a page are at least a page apart. -/
theorem add_page_le (hn : page ∣ n) (hm : page ∣ m) (h : n < m) : n + page ≤ m := by
  have := Nat.le_of_dvd (by omega) (Nat.dvd_sub hm hn)
  omega

/-- Rounding does not pass a multiple of the page size. -/
theorem roundToPage_le_iff (hp : page.isPowerOfTwo) (hm : page ∣ m) : roundToPage n page ≤ m ↔ n ≤ m := by
  obtain ⟨hle, hlt⟩ := roundToPage_bounds hp n
  have hround := Nat.dvd_of_mod_eq_zero (roundToPage_mod hp n)
  refine ⟨fun h => Nat.le_trans hle h, fun h => Nat.le_of_not_lt fun hpast => ?_⟩
  have := add_page_le hm hround hpast
  omega

theorem page_dvd (hp : page.isPowerOfTwo) (h : page < UInt64.size) : page ∣ 2 ^ 63 := by
  obtain ⟨k, rfl⟩ := hp
  have hk : k < 64 := (Nat.pow_lt_pow_iff_right (by decide)).mp h
  exact Nat.pow_dvd_pow 2 (by omega)

theorem page_le (hp : page.isPowerOfTwo) (h : page < UInt64.size) : page ≤ 2 ^ 63 :=
  Nat.le_of_dvd (by decide) (page_dvd hp h)

end

theorem Config.fault?_eq_none_iff {config : Config} :
    config.fault? = none ↔ 4 ≤ config.heapWords ∧ config.heapWords < 2 ^ 61 ∧ 0 < config.rootCapacity := by
  unfold fault? spaceWords UInt64.size
  split
  · simp; omega
  · split
    · simp; omega
    · split <;> simp <;> omega

/-- The least heap whose halves have more bytes than there are addresses. -/
def heapLimit (page : Nat) : Nat := 2 ^ 61 - page / 4 + 2

namespace Layout

variable {machine : Machine} {heapWords : Nat}

theorem total_overflows_iff (h : machine.page < UInt64.size) :
    UInt64.size ≤ 2 * spaceBytesFor machine.page (heapWords / 2) ↔ heapLimit machine.page ≤ heapWords := by
  have hp := machine.page_pow
  have hpos := Nat.pos_of_isPowerOfTwo hp
  have hpage := page_dvd hp h
  have hle := page_le hp h
  have hwords : machine.page % 8 = 0 := machine.page_words
  have hround := @roundToPage_le_iff _ (heapWords / 2 * wordBytes) (2 ^ 63 - machine.page) hp
    (Nat.dvd_sub hpage (Nat.dvd_refl _))
  have hgap := @add_page_le _ (roundToPage (heapWords / 2 * wordBytes) machine.page) (2 ^ 63)
    (Nat.dvd_of_mod_eq_zero (roundToPage_mod hp _)) hpage
  unfold UInt64.size spaceBytesFor heapLimit wordBytes at *
  -- a half that takes less than `2 ^ 63` bytes leaves a whole page of them
  have hhalf : roundToPage (heapWords / 2 * 8) machine.page < 2 ^ 63 ↔ heapWords / 2 * 8 ≤ 2 ^ 63 - machine.page := by
    rw [← hround]
    omega
  omega

/-- One half alone never has too many bytes. -/
theorem isSome_roundToPage? (h : machine.page < UInt64.size) (hw : heapWords < 2 ^ 61) :
    (roundToPage? (heapWords / 2 * wordBytes) machine.page).isSome = true := by
  have hle := page_le machine.page_pow h
  have hfits : heapWords / 2 * wordBytes + (machine.page - 1) < UInt64.size := by
    unfold UInt64.size wordBytes
    omega
  rw [roundToPage?, if_pos hfits]
  rfl

theorem plan_late (h : machine.page < UInt64.size) (hw : heapWords < 2 ^ 61) (hl : heapLimit machine.page ≤ heapWords) :
    plan machine heapWords = .error (.heapInitialization .heapOverflows) := by
  have htotal := (total_overflows_iff h).mpr hl
  have hpos : 0 < heapWords / 2 := by
    have hle := page_le machine.page_pow h
    unfold heapLimit at hl
    omega
  unfold plan
  simp only [dif_pos hpos, Option.isNone_eq_false_iff.mpr (isSome_roundToPage? h hw), if_pos htotal]
  rfl

theorem plan_early (h : machine.page < UInt64.size) (hpos : 2 ≤ heapWords) (hw : heapWords < 2 ^ 61)
    (hl : heapWords < heapLimit machine.page) {e : Error} (he : plan machine heapWords = .error e) :
    ∃ m, e = .virtualMemory m := by
  have htotal : ¬ UInt64.size ≤ 2 * spaceBytesFor machine.page (heapWords / 2) :=
    fun ht => Nat.not_le.mpr hl ((total_overflows_iff h).mp ht)
  have hhalf : 0 < heapWords / 2 := by omega
  unfold plan at he
  simp only [dif_pos hhalf, Option.isNone_eq_false_iff.mpr (isSome_roundToPage? h hw), if_neg htotal] at he
  rw [if_neg Bool.false_ne_true] at he
  split at he
  · cases he
    exact ⟨_, rfl⟩
  split at he
  · cases he
  · cases he
    exact ⟨_, rfl⟩

end Layout

theorem Arena.map_eq_error_iff {machine : Machine} {heapWords : Nat} {e : Error} :
    Arena.map machine heapWords = .error e ↔ Layout.plan machine heapWords = .error e := by
  unfold Arena.map
  cases Layout.plan machine heapWords <;> simp [Except.map]

/-- Memory for a heap, or for so many roots, could not be had. -/
inductive Error.Shortage (roots : Nat) : Error → Prop
  | heap (m : MappingFault) : Shortage roots (.virtualMemory m)
  | stack : Shortage roots (.rootStackAllocation roots)

theorem Error.Shortage.isFatal {roots : Nat} {e : Error} (h : e.Shortage roots) : e.isFatal = true := by
  cases h with
  | heap m => rfl
  | stack => rfl

namespace Collector

variable {machine : Machine} {config : Config} {j : Journal}

theorem run_create_invalid {f : Config.Fault} (hf : config.fault? = some f) :
    (create machine config).run j = .error (.configuration (.invalid f)) j := by
  unfold create
  rw [hf]
  rfl

/-- No heap from the limit on is mapped. -/
theorem run_create_late (h : machine.page < UInt64.size) (hc : config.fault? = none)
    (hl : heapLimit machine.page ≤ config.heapWords) :
    (create machine config).run j = .error (.heapInitialization .heapOverflows) j := by
  obtain ⟨_, hlarge, _⟩ := Config.fault?_eq_none_iff.mp hc
  have ha := Arena.map_eq_error_iff.mpr (Layout.plan_late h hlarge hl)
  unfold create
  rw [hc, ha]
  rfl

/-- Below the limit a heap is refused only for want of memory. -/
theorem run_create_early (h : machine.page < UInt64.size) (hc : config.fault? = none)
    (hl : config.heapWords < heapLimit machine.page) {e : Error} {j' : Journal}
    (hr : (create machine config).run j = .error e j') : e.Shortage config.rootCapacity := by
  obtain ⟨hsmall, hlarge, _⟩ := Config.fault?_eq_none_iff.mp hc
  have hrun := run_create machine config j
  rw [hr] at hrun
  cases hrun with
  | invalid hf => rw [hc] at hf; cases hf
  | unmapped _ ha =>
    obtain ⟨m, rfl⟩ := Layout.plan_early h (by omega) hlarge hl (Arena.map_eq_error_iff.mp ha)
    exact .heap m
  | released _ _ hroots =>
    unfold RootStack.ofCapacity at hroots
    split at hroots
    · cases hroots
    · cases hroots
      exact .stack

theorem run_create_heapInitialization_iff (h : machine.page < UInt64.size) (hc : config.fault? = none) {f : SizeFault}
    {j' : Journal} : (create machine config).run j = .error (.heapInitialization f) j' ↔
      heapLimit machine.page ≤ config.heapWords ∧ f = .heapOverflows ∧ j' = j := by
  by_cases hl : heapLimit machine.page ≤ config.heapWords
  · rw [run_create_late h hc hl]
    simp [hl, eq_comm]
  · refine iff_of_false (fun hr => ?_) fun hall => hl hall.1
    cases run_create_early h hc (Nat.not_le.mp hl) hr

end Collector

namespace Call

variable {p : Program} {heap roots : Int}

theorem run_init_ok (hs : p.slot = none) (hh : 0 ≤ heap) (hn : 0 ≤ roots) {c : Collector} {j : Journal}
    (hr : (Collector.create p.machine (p.configFor heap roots)).run p.journal = .ok c j) :
    (init heap roots).run p = .ok true { p with slot := some c, journal := j } := by
  rw [run_init hs (by omega), hr]
  rfl

theorem run_init_invalid (hs : p.slot = none) (hh : 0 ≤ heap) (hn : 0 ≤ roots) {f : Config.Fault}
    (hf : (p.configFor heap roots).fault? = some f) : (init heap roots).run p =
      .ok false { p with journal := p.journal.report (.initRefused (.configuration (.invalid f))) } := by
  rw [run_init hs (by omega), Collector.run_create_invalid hf]
  rfl

theorem run_init_late (h : p.machine.page < UInt64.size) (hs : p.slot = none) (hh : 0 ≤ heap) (hn : 0 ≤ roots)
    (hf : (p.configFor heap roots).fault? = none) (hl : heapLimit p.machine.page ≤ heap.toNat) :
    (init heap roots).run p =
      .error 255 { p with journal := p.journal.report (.fatal (.heapInitialization .heapOverflows)) } :=
  run_init_fatal hs hh hn (Collector.run_create_late h hf hl) rfl

theorem run_init_early (h : p.machine.page < UInt64.size) (hs : p.slot = none) (hh : 0 ≤ heap) (hn : 0 ≤ roots)
    (hf : (p.configFor heap roots).fault? = none) (hl : heap.toNat < heapLimit p.machine.page) :
    (∃ c j, (init heap roots).run p = .ok true { p with slot := some c, journal := j }) ∨
    ∃ (e : Error) (j : Journal), e.Shortage roots.toNat ∧
      (init heap roots).run p = .error (exitStatus e.exitCode) { p with journal := j.report (.fatal e) } := by
  cases hr : (Collector.create p.machine (p.configFor heap roots)).run p.journal with
  | ok c j => exact .inl ⟨c, j, run_init_ok hs hh hn hr⟩
  | error e j =>
    have he : e.Shortage roots.toNat := Collector.run_create_early h hf hl hr
    exact .inr ⟨e, j, he, run_init_fatal hs hh hn hr he.isFatal⟩

end Call

/-- Configurations that are not refused fit into the address space below the limit. From there on the size
of both halves does not, which ends the process, while a configuration that is refused is reported. -/
theorem late_sizes (machine : Machine) (h : machine.page < UInt64.size) :
    (∀ config : Config, config.fault? = none →
      config.heapWords * wordBytes < UInt64.size ∧
      (roundToPage? (config.spaceWords * wordBytes) machine.page).isSome = true ∧
      (UInt64.size ≤ 2 * spaceBytesFor machine.page config.spaceWords ↔ heapLimit machine.page ≤ config.heapWords) ∧
      ∀ j f j', (Collector.create machine config).run j = .error (.heapInitialization f) j' ↔
        heapLimit machine.page ≤ config.heapWords ∧ f = .heapOverflows ∧ j' = j) ∧
    ∀ (p : Program) (heap roots : Int), p.machine = machine → p.slot = none → 0 ≤ heap → 0 ≤ roots →
      (∀ f, (p.configFor heap roots).fault? = some f → (Call.init heap roots).run p =
        .ok false { p with journal := p.journal.report (.initRefused (.configuration (.invalid f))) }) ∧
      ((p.configFor heap roots).fault? = none → heapLimit machine.page ≤ heap.toNat → (Call.init heap roots).run p =
        .error 255 { p with journal := p.journal.report (.fatal (.heapInitialization .heapOverflows)) }) ∧
      ((p.configFor heap roots).fault? = none → heap.toNat < heapLimit machine.page →
        (∃ c j, (Call.init heap roots).run p = .ok true { p with slot := some c, journal := j }) ∨
        ∃ (e : Error) (j : Journal), e.Shortage roots.toNat ∧
          (Call.init heap roots).run p = .error (exitStatus e.exitCode) { p with journal := j.report (.fatal e) }) := by
  refine ⟨fun config hc => ?create, ?init⟩
  case create =>
    obtain ⟨_, hlarge, _⟩ := Config.fault?_eq_none_iff.mp hc
    refine ⟨?_, Layout.isSome_roundToPage? h hlarge, Layout.total_overflows_iff h, fun j f j' => ?_⟩
    · unfold UInt64.size wordBytes
      omega
    · exact Collector.run_create_heapInitialization_iff h hc
  case init =>
    rintro p heap roots rfl hs hh hn
    exact ⟨fun f hf => Call.run_init_invalid hs hh hn hf, fun hf hl => Call.run_init_late h hs hh hn hf hl,
      fun hf hl => Call.run_init_early h hs hh hn hf hl⟩

/-- The largest heap that fits, and one word more. -/
theorem late_sizes_limit :
    heapLimit pageBytes = 2 ^ 61 - 1022 ∧
    (∀ j f j', (Collector.create .standard (.withSizes (2 ^ 61 - 1023) 4)).run j ≠ .error (.heapInitialization f) j') ∧
    (∀ j, (Collector.create .standard (.withSizes (2 ^ 61 - 1022) 4)).run j =
      .error (.heapInitialization .heapOverflows) j) ∧
    (Call.init 2305843009213692930 4).run (.start .standard .empty) =
      .error 255 ⟨.standard, .empty, none, Journal.empty.report (.fatal (.heapInitialization .heapOverflows))⟩ ∧
    (Call.init 2305843009213693952 4).run (.start .standard .empty) =
      .ok false ⟨.standard, .empty, none, Journal.empty.report (.initRefused (.configuration (.invalid .heapOverflows)))⟩ := by
  obtain ⟨hcreate, hinit⟩ := late_sizes .standard (by decide)
  obtain ⟨_, _, _, hfits⟩ := hcreate (.withSizes (2 ^ 61 - 1023) 4) (by decide)
  obtain ⟨_, _, _, hlate⟩ := hcreate (.withSizes (2 ^ 61 - 1022) 4) (by decide)
  obtain ⟨_, hends, _⟩ := hinit (.start .standard .empty) 2305843009213692930 4 rfl rfl (by decide) (by decide)
  obtain ⟨hrefused, _, _⟩ := hinit (.start .standard .empty) 2305843009213693952 4 rfl rfl (by decide) (by decide)
  refine ⟨by decide, fun j f j' hr => absurd ((hfits j f j').mp hr).1 (by decide), fun j => ?_, ?_, ?_⟩
  · exact (hlate j _ j).mpr ⟨by decide, rfl, rfl⟩
  · exact hends (by decide +kernel) (by decide)
  · exact hrefused _ (by decide +kernel)

/-- The largest heap of all that a configuration may have. Each of its halves takes `2 ^ 63` bytes when it is
rounded up. -/
theorem init_ends_late :
    let config := Config.withSizes 2305843009213693951 4
    config.fault? = none ∧ spaceBytesFor pageBytes config.spaceWords = 2 ^ 63 ∧
    (Collector.create .standard config).run .empty = .error (.heapInitialization .heapOverflows) .empty ∧
    (Call.init 2305843009213693951 4).run (.start .standard .empty) =
      .error 255 ⟨.standard, .empty, none, Journal.empty.report (.fatal (.heapInitialization .heapOverflows))⟩ := by
  have hpage : Machine.page .standard < UInt64.size := by decide
  refine ⟨by decide, by decide, ?_, ?_⟩
  · exact Collector.run_create_late hpage (by decide) (by decide)
  · exact Call.run_init_late hpage rfl (by decide) (by decide) (by decide +kernel) (by decide)

end Semispace
