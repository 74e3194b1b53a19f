import WriteMemo.Proofs.Json.Number
import WriteMemo.Proofs.Text.Blank
import WriteMemo.Settings

namespace WriteMemo

namespace KeyStrategy

def names : KeyStrategy → List String
  | .generateName => ["generate-name", "generatename"]
  | .contentHash => ["content-hash", "contenthash"]

theorem ofText?_eq_some_iff {text : List Char} {strategy : KeyStrategy} :
    ofText? text = some strategy ↔ String.ofList text ∈ strategy.names := by
  have hof (name : String) : String.ofList text = name ↔ text = name.toList := by
    rw [← String.toList_inj, String.toList_ofList]
  cases strategy with
  | generateName =>
      simp only [names, List.mem_cons, List.not_mem_nil, or_false, hof]
      rw [ofText?]
      split
      · next h => exact ⟨fun _ => h, fun _ => rfl⟩
      · next h =>
        split <;> exact ⟨nofun, fun hname => absurd hname h⟩
  | contentHash =>
      simp only [names, List.mem_cons, List.not_mem_nil, or_false, hof]
      rw [ofText?]
      split
      · next h => rcases h with rfl | rfl <;> decide
      · split
        · next h => exact ⟨fun _ => h, fun _ => rfl⟩
        · next h => exact ⟨nofun, fun hname => absurd hname h⟩

end KeyStrategy

namespace Settings

open Text Json

-- The value is one of 64 bits, so the digits of a larger one spell none.
def SpellsNumber (text : List Char) (value : UInt64) : Prop :=
  ∃ sign digits, Trimmed text (sign ++ digits) ∧ (sign = [] ∨ sign = ['+']) ∧ digits ≠ [] ∧
    Numeral.AllDigits digits ∧ Nat.ofDigitChars 10 digits 0 = value.toNat

def SpellsStrategy (text : List Char) (strategy : KeyStrategy) : Prop :=
  ∃ name, Trimmed text name ∧ String.ofList (name.map Char.toLower) ∈ strategy.names

-- The value of a setting, from the text of its variable if there is one.
def Taken {α : Type} (default : α) (spells : List Char → α → Prop) : Option String → α → Prop
  | none, value => value = default
  | some text, value => spells text.toList value

-- Every setting has the value that its variable spells, or its default.
structure Configured (lookup : String → Option String) (settings : Settings) : Prop where
  capacity : Taken standard.capacity SpellsNumber (lookup Setting.capacity.name) settings.capacity
  keyStrategy : Taken standard.keyStrategy SpellsStrategy (lookup Setting.keyStrategy.name)
    settings.keyStrategy
  statsInterval : Taken standard.statsInterval SpellsNumber (lookup Setting.statsInterval.name)
    settings.statsInterval

-- The text spells a value of the setting.
def Setting.Accepts : Setting → List Char → Prop
  | .capacity, text | .statsInterval, text => ∃ value, SpellsNumber text value
  | .keyStrategy, text => ∃ strategy, SpellsStrategy text strategy

-- What a fault shows of a text: all of it for a number, but the name of a strategy trimmed and in
-- small letters.
def Setting.Shows : Setting → List Char → List Char → Prop
  | .capacity, text, shown | .statsInterval, text, shown => shown = text
  | .keyStrategy, text, shown => ∃ name, Trimmed text name ∧ shown = name.map Char.toLower

def Valid (lookup : String → Option String) (setting : Setting) : Prop :=
  ∀ text ∈ lookup setting.name, setting.Accepts text.toList

def Faulty (lookup : String → Option String) (fault : Fault) : Prop :=
  ∃ text ∈ lookup fault.setting.name, ¬fault.setting.Accepts text.toList ∧
    fault.setting.Shows text.toList fault.value

-- The settings that are read before a setting.
def Setting.earlier : Setting → List Setting
  | .capacity => []
  | .keyStrategy => [.capacity]
  | .statsInterval => [.capacity, .keyStrategy]

-- How one setting is read, alone.
structure ReadsBy {α : Type} (setting : Setting) (read : List Char → Except Fault α)
    (spells : List Char → α → Prop) : Prop where
  ok_iff : ∀ text value, read text = .ok value ↔ spells text value
  error_iff : ∀ text fault, read text = .error fault ↔
    fault.setting = setting ∧ ¬setting.Accepts text ∧ setting.Shows text fault.value
  accepts_iff : ∀ text, setting.Accepts text ↔ ∃ value, spells text value

theorem natural?_eq_some_iff {digits : List Char} {value : UInt64} :
    natural? digits = some value ↔
      digits ≠ [] ∧ Numeral.AllDigits digits ∧ Nat.ofDigitChars 10 digits 0 = value.toNat := by
  have hform : (digits.isEmpty || !digits.all Char.isDigit) = true ↔
      ¬(digits ≠ [] ∧ Numeral.AllDigits digits) := by
    rw [not_and_or, not_not, Bool.or_eq_true, List.isEmpty_iff, Bool.not_eq_true',
      ← Bool.not_eq_true, List.all_eq_true, Numeral.AllDigits]
  rw [natural?, ← and_assoc]
  split
  · next h => exact ⟨nofun, fun hnumber => absurd hnumber.1 (hform.mp h)⟩
  · next h =>
    rw [hform, not_not] at h
    rw [and_iff_right h]
    dsimp only
    split
    · next hlt =>
      rw [Option.some_inj, ← UInt64.toNat_inj, UInt64.toNat_ofNatLT]
    · next hge =>
      refine ⟨nofun, fun hvalue => absurd ?_ hge⟩
      exact hvalue ▸ value.toNat_lt_size

theorem natural?_dropSign_iff {core : List Char} {value : UInt64} :
    natural? (dropSign core) = some value ↔
      ∃ sign digits, core = sign ++ digits ∧ (sign = [] ∨ sign = ['+']) ∧
        natural? digits = some value := by
  constructor
  · intro h
    unfold dropSign at h
    split at h
    · exact ⟨['+'], _, rfl, .inr rfl, h⟩
    · exact ⟨[], core, rfl, .inl rfl, h⟩
  · rintro ⟨sign, digits, rfl, rfl | rfl, h⟩
    · have hfirst : ∀ rest, digits ≠ '+' :: rest := by
        rintro rest rfl
        exact absurd ((natural?_eq_some_iff.mp h).2.1 '+' List.mem_cons_self) (by decide)
      rw [List.nil_append, dropSign]
      · exact h
      · exact fun rest heq => hfirst rest heq
    · exact h

theorem spellsNumber_iff {text : List Char} {value : UInt64} :
    SpellsNumber text value ↔ natural? (dropSign (trim text)) = some value := by
  rw [natural?_dropSign_iff]
  simp only [SpellsNumber, trimmed_iff, natural?_eq_some_iff]

theorem readsBy_readNumber {setting : Setting} (h : setting ≠ .keyStrategy) :
    ReadsBy setting (readNumber setting) SpellsNumber := by
  have haccepts (text : List Char) : setting.Accepts text ↔ ∃ value, SpellsNumber text value := by
    cases setting with
    | keyStrategy => contradiction
    | capacity | statsInterval => rfl
  have hshows (text shown : List Char) : setting.Shows text shown ↔ shown = text := by
    cases setting with
    | keyStrategy => contradiction
    | capacity | statsInterval => rfl
  refine ⟨fun text value => ?_, fun text fault => ?_, haccepts⟩
  · rw [readNumber, spellsNumber_iff]
    cases natural? (dropSign (trim text)) <;> simp
  · rw [haccepts, hshows]
    simp only [spellsNumber_iff, readNumber]
    obtain ⟨other, shown⟩ := fault
    cases natural? (dropSign (trim text)) <;> simp [eq_comm]

theorem readsBy_capacity : ReadsBy .capacity (readNumber .capacity) SpellsNumber :=
  readsBy_readNumber Setting.noConfusion

theorem readsBy_statsInterval : ReadsBy .statsInterval (readNumber .statsInterval) SpellsNumber :=
  readsBy_readNumber Setting.noConfusion

theorem readsBy_readStrategy : ReadsBy .keyStrategy readStrategy SpellsStrategy := by
  have hspells (text : List Char) (strategy : KeyStrategy) : SpellsStrategy text strategy ↔
      KeyStrategy.ofText? ((trim text).map Char.toLower) = some strategy := by
    simp only [SpellsStrategy, trimmed_iff, exists_eq_left', KeyStrategy.ofText?_eq_some_iff]
  refine ⟨fun text strategy => ?_, fun text fault => ?_, fun text => Iff.rfl⟩
  · rw [readStrategy, hspells]
    cases KeyStrategy.ofText? ((trim text).map Char.toLower) <;> simp
  · simp only [Setting.Accepts, Setting.Shows, trimmed_iff, exists_eq_left', hspells, readStrategy]
    obtain ⟨other, shown⟩ := fault
    cases KeyStrategy.ofText? ((trim text).map Char.toLower) <;> simp [eq_comm]

variable {α : Type} {setting : Setting} {read : List Char → Except Fault α}
  {spells : List Char → α → Prop} {lookup : String → Option String} {settings : Settings}
  {fault : Fault}

theorem ReadsBy.readOr_eq_ok_iff (h : ReadsBy setting read spells) (default : α)
    (source : Option String) (value : α) :
    readOr default read source = .ok value ↔ Taken default spells source value := by
  cases source with
  | none => simp [readOr, Taken, eq_comm]
  | some text => exact h.ok_iff text.toList value

theorem ReadsBy.readOr_eq_error_iff (h : ReadsBy setting read spells) (default : α)
    (lookup : String → Option String) (fault : Fault) :
    readOr default read (lookup setting.name) = .error fault ↔
      fault.setting = setting ∧ Faulty lookup fault := by
  cases hsource : lookup setting.name with
  | none =>
      refine ⟨nofun, ?_⟩
      rintro ⟨rfl, text, htext, -⟩
      rw [hsource] at htext
      cases htext
  | some text =>
      rw [readOr, h.error_iff]
      refine and_congr_right ?_
      rintro rfl
      simp [Faulty, hsource]

theorem ReadsBy.valid_iff (h : ReadsBy setting read spells) (default : α)
    (lookup : String → Option String) :
    Valid lookup setting ↔ ∃ value, readOr default read (lookup setting.name) = .ok value := by
  cases hsource : lookup setting.name with
  | none => simp [Valid, hsource, readOr]
  | some text => simp [Valid, hsource, readOr, h.accepts_iff, h.ok_iff]

theorem load_of_configured (h : Configured lookup settings) :
    load lookup = (.ok settings, [.capacity, .keyStrategy, .statsInterval]) := by
  have hcapacity := (readsBy_capacity.readOr_eq_ok_iff _ _ _).mpr h.capacity
  have hstrategy := (readsBy_readStrategy.readOr_eq_ok_iff _ _ _).mpr h.keyStrategy
  have hinterval := (readsBy_statsInterval.readOr_eq_ok_iff _ _ _).mpr h.statsInterval
  simp only [load, hcapacity, hstrategy, hinterval]

theorem load_of_faulty (h : Faulty lookup fault)
    (hearlier : ∀ setting ∈ fault.setting.earlier, Valid lookup setting) :
    load lookup = (.error fault, fault.setting.earlier ++ [fault.setting]) := by
  cases hsetting : fault.setting with
  | capacity =>
      have hcapacity :=
        (readsBy_capacity.readOr_eq_error_iff standard.capacity _ _).mpr ⟨hsetting, h⟩
      simp only [load, hcapacity]
      rfl
  | keyStrategy =>
      rw [hsetting, Setting.earlier, List.forall_mem_singleton] at hearlier
      obtain ⟨capacity, hcapacity⟩ :=
        (readsBy_capacity.valid_iff standard.capacity lookup).mp hearlier
      have hstrategy :=
        (readsBy_readStrategy.readOr_eq_error_iff standard.keyStrategy _ _).mpr ⟨hsetting, h⟩
      simp only [load, hcapacity, hstrategy]
      rfl
  | statsInterval =>
      rw [hsetting, Setting.earlier, List.forall_mem_cons, List.forall_mem_singleton] at hearlier
      obtain ⟨capacity, hcapacity⟩ :=
        (readsBy_capacity.valid_iff standard.capacity lookup).mp hearlier.1
      obtain ⟨strategy, hstrategy⟩ :=
        (readsBy_readStrategy.valid_iff standard.keyStrategy lookup).mp hearlier.2
      have hinterval :=
        (readsBy_statsInterval.readOr_eq_error_iff standard.statsInterval _ _).mpr ⟨hsetting, h⟩
      simp only [load, hcapacity, hstrategy, hinterval]
      rfl

theorem Configured.valid (h : Configured lookup settings) (setting : Setting) :
    Valid lookup setting := by
  cases setting with
  | capacity =>
      exact (readsBy_capacity.valid_iff _ _).mpr
        ⟨_, (readsBy_capacity.readOr_eq_ok_iff _ _ _).mpr h.capacity⟩
  | keyStrategy =>
      exact (readsBy_readStrategy.valid_iff _ _).mpr
        ⟨_, (readsBy_readStrategy.readOr_eq_ok_iff _ _ _).mpr h.keyStrategy⟩
  | statsInterval =>
      exact (readsBy_statsInterval.valid_iff _ _).mpr
        ⟨_, (readsBy_statsInterval.readOr_eq_ok_iff _ _ _).mpr h.statsInterval⟩

theorem exists_configured (h : ∀ setting, Valid lookup setting) :
    ∃ settings, Configured lookup settings := by
  obtain ⟨capacity, hcapacity⟩ := (readsBy_capacity.valid_iff standard.capacity _).mp (h .capacity)
  obtain ⟨strategy, hstrategy⟩ :=
    (readsBy_readStrategy.valid_iff standard.keyStrategy _).mp (h .keyStrategy)
  obtain ⟨interval, hinterval⟩ :=
    (readsBy_statsInterval.valid_iff standard.statsInterval _).mp (h .statsInterval)
  exact ⟨⟨capacity, strategy, interval⟩, (readsBy_capacity.readOr_eq_ok_iff _ _ _).mp hcapacity,
    (readsBy_readStrategy.readOr_eq_ok_iff _ _ _).mp hstrategy,
    (readsBy_statsInterval.readOr_eq_ok_iff _ _ _).mp hinterval⟩

theorem exists_faulty_of_not_valid (h : ¬Valid lookup setting) :
    ∃ fault, fault.setting = setting ∧ Faulty lookup fault := by
  obtain ⟨text, htext, hnot⟩ : ∃ text ∈ lookup setting.name, ¬setting.Accepts text.toList := by
    simpa [Valid] using h
  cases setting with
  | capacity | statsInterval => exact ⟨⟨_, text.toList⟩, rfl, text, htext, hnot, rfl⟩
  | keyStrategy =>
      exact ⟨⟨.keyStrategy, (trim text.toList).map Char.toLower⟩, rfl, text, htext, hnot,
        trim text.toList, trimmed_trim text.toList, rfl⟩

-- Either every variable can be read, or there is a first one that cannot.
theorem configured_or_faulty (lookup : String → Option String) :
    (∃ settings, Configured lookup settings) ∨ ∃ fault, Faulty lookup fault ∧
      ∀ setting ∈ fault.setting.earlier, Valid lookup setting := by
  by_cases hcapacity : Valid lookup .capacity
  · by_cases hstrategy : Valid lookup .keyStrategy
    · by_cases hinterval : Valid lookup .statsInterval
      · refine .inl (exists_configured fun setting => ?_)
        cases setting <;> assumption
      · obtain ⟨fault, hsetting, hfaulty⟩ := exists_faulty_of_not_valid hinterval
        exact .inr ⟨fault, hfaulty, by simp [hsetting, Setting.earlier, hcapacity, hstrategy]⟩
    · obtain ⟨fault, hsetting, hfaulty⟩ := exists_faulty_of_not_valid hstrategy
      exact .inr ⟨fault, hfaulty, by simp [hsetting, Setting.earlier, hcapacity]⟩
  · obtain ⟨fault, hsetting, hfaulty⟩ := exists_faulty_of_not_valid hcapacity
    exact .inr ⟨fault, hfaulty, by simp [hsetting, Setting.earlier]⟩

theorem load_eq_ok_iff : (load lookup).1 = .ok settings ↔ Configured lookup settings := by
  refine ⟨fun h => ?_, fun h => by rw [load_of_configured h]⟩
  rcases configured_or_faulty lookup with ⟨other, hother⟩ | ⟨fault, hfaulty, hearlier⟩
  · rw [load_of_configured hother] at h
    cases h
    exact hother
  · rw [load_of_faulty hfaulty hearlier] at h
    cases h

theorem load_eq_error_iff : (load lookup).1 = .error fault ↔
    Faulty lookup fault ∧ ∀ setting ∈ fault.setting.earlier, Valid lookup setting := by
  refine ⟨fun h => ?_, fun h => by rw [load_of_faulty h.1 h.2]⟩
  rcases configured_or_faulty lookup with ⟨settings, hsettings⟩ | ⟨other, hother, hearlier⟩
  · rw [load_of_configured hsettings] at h
    cases h
  · rw [load_of_faulty hother hearlier] at h
    cases h
    exact ⟨hother, hearlier⟩

-- The result hangs on the variables asked for, and on no other.
theorem load_congr {other : String → Option String}
    (h : ∀ setting ∈ (load lookup).2, other setting.name = lookup setting.name) :
    load other = load lookup := by
  rcases configured_or_faulty lookup with ⟨settings, hconfigured⟩ | ⟨fault, hfaulty, hearlier⟩
  · rw [load_of_configured hconfigured] at h ⊢
    simp only [List.mem_cons, List.not_mem_nil, or_false, forall_eq_or_imp, forall_eq] at h
    refine load_of_configured ⟨?_, ?_, ?_⟩
    · rw [h.1]
      exact hconfigured.capacity
    · rw [h.2.1]
      exact hconfigured.keyStrategy
    · rw [h.2.2]
      exact hconfigured.statsInterval
  · rw [load_of_faulty hfaulty hearlier] at h ⊢
    rw [List.forall_mem_append, List.forall_mem_singleton] at h
    refine load_of_faulty ?_ fun setting hmem => ?_
    · rwa [Faulty, h.2]
    · rw [Valid, h.1 setting hmem]
      exact hearlier setting hmem

-- A number as it is written out, with blanks around it and with a sign and zeros in front of it.
def PaddedNumber (text : List Char) (value : UInt64) : Prop :=
  ∃ left sign zeros right, AllBlank left ∧ AllBlank right ∧ (sign = [] ∨ sign = ['+']) ∧
    text = left ++ (sign ++ (List.replicate zeros '0' ++ Nat.toDigits 10 value.toNat)) ++ right

-- The text of a strategy in any case, with blanks around it.
def PaddedStrategy (text : List Char) (strategy : KeyStrategy) : Prop :=
  ∃ left name right, AllBlank left ∧ AllBlank right ∧
    name.map Char.toLower = strategy.text.toList ∧ text = left ++ name ++ right

structure Written (lookup : String → Option String) (settings : Settings) : Prop where
  capacity : ∃ text ∈ lookup Setting.capacity.name, PaddedNumber text.toList settings.capacity
  keyStrategy : ∃ text ∈ lookup Setting.keyStrategy.name,
    PaddedStrategy text.toList settings.keyStrategy
  statsInterval : ∃ text ∈ lookup Setting.statsInterval.name,
    PaddedNumber text.toList settings.statsInterval

theorem spellsNumber_of_padded {text : List Char} {value : UInt64} (h : PaddedNumber text value) :
    SpellsNumber text value := by
  obtain ⟨left, sign, zeros, right, hleft, hright, hsign, rfl⟩ := h
  have hdigits : Numeral.AllDigits (List.replicate zeros '0' ++ Nat.toDigits 10 value.toNat) :=
    List.forall_mem_append.mpr ⟨Number.allDigits_zeros zeros, Numeral.allDigits_naturalText _⟩
  have hcore : ∀ c ∈ sign ++ (List.replicate zeros '0' ++ Nat.toDigits 10 value.toNat),
      isBlank c = false := by
    refine List.forall_mem_append.mpr
      ⟨fun c hc => ?_, fun c hc => isBlank_of_isDigit (hdigits c hc)⟩
    rcases hsign with rfl | rfl
    · cases hc
    · rw [List.mem_singleton.mp hc]
      rfl
  refine ⟨sign, _, .of_no_blank hleft hright hcore, hsign, ?_, hdigits, ?_⟩
  · exact List.append_ne_nil_of_right_ne_nil _ (Numeral.naturalText_ne_nil _)
  · rw [Number.ofDigitChars_zeros_append]
    exact Numeral.ofDigitChars_naturalText _

theorem spellsStrategy_of_padded {text : List Char} {strategy : KeyStrategy}
    (h : PaddedStrategy text strategy) : SpellsStrategy text strategy := by
  obtain ⟨left, name, right, hleft, hright, hname, rfl⟩ := h
  have hcore : ∀ c ∈ name, isBlank c = false := by
    intro c hc
    rw [← Bool.not_eq_true]
    intro hblank
    have hmem : c ∈ strategy.text.toList := by
      rw [← hname, ← toLower_of_isBlank hblank]
      exact List.mem_map_of_mem hc
    have hnone : strategy.text.toList.any isBlank = false := by cases strategy <;> decide +kernel
    exact List.any_eq_false.mp hnone c hmem hblank
  refine ⟨name, .of_no_blank hleft hright hcore, ?_⟩
  rw [hname, String.ofList_toList]
  cases strategy <;> exact List.mem_cons_self

theorem Written.configured (h : Written lookup settings) : Configured lookup settings := by
  obtain ⟨⟨capacity, hcapacity, hnumber⟩, ⟨strategy, hstrategy, hname⟩,
    ⟨interval, hinterval, hseconds⟩⟩ := h
  refine ⟨?_, ?_, ?_⟩
  · rw [Option.mem_def.mp hcapacity]
    exact spellsNumber_of_padded hnumber
  · rw [Option.mem_def.mp hstrategy]
    exact spellsStrategy_of_padded hname
  · rw [Option.mem_def.mp hinterval]
    exact spellsNumber_of_padded hseconds

-- Reading succeeds exactly if every variable that is there can be read, and then each setting is
-- what its variable spells or its default. Otherwise the fault is that of the first variable that
-- cannot be read, and no later one is asked for. Settings that are written out are read back.
theorem settings_read_iff_variables_valid (lookup : String → Option String) :
    (∀ settings, (load lookup).1 = .ok settings ↔ Configured lookup settings) ∧
    ((∃ settings, (load lookup).1 = .ok settings) ↔ ∀ setting, Valid lookup setting) ∧
    (∀ fault, (load lookup).1 = .error fault ↔
      Faulty lookup fault ∧ ∀ setting ∈ fault.setting.earlier, Valid lookup setting) ∧
    (∀ fault, (load lookup).1 = .error fault →
      (load lookup).2 = fault.setting.earlier ++ [fault.setting]) ∧
    (∀ other : String → Option String,
      (∀ setting ∈ (load lookup).2, other setting.name = lookup setting.name) →
        load other = load lookup) ∧
    ∀ settings, Written lookup settings → (load lookup).1 = .ok settings := by
  refine ⟨fun settings => load_eq_ok_iff, ⟨?_, fun h => ?_⟩, fun fault => load_eq_error_iff,
    fun fault h => ?_, fun other => load_congr, fun settings h => load_eq_ok_iff.mpr h.configured⟩
  · rintro ⟨settings, h⟩
    exact (load_eq_ok_iff.mp h).valid
  · obtain ⟨settings, hsettings⟩ := exists_configured h
    exact ⟨settings, load_eq_ok_iff.mpr hsettings⟩
  · obtain ⟨hfaulty, hearlier⟩ := load_eq_error_iff.mp h
    rw [load_of_faulty hfaulty hearlier]

-- Blanks of several kinds, a sign, zeros in front and capital letters.
theorem padded_settings_read :
    let lookup := fun name =>
      if name = Setting.capacity.name then some " +00500\t"
      else if name = Setting.keyStrategy.name then some "\u3000Content-HASH\n"
      else some "\u00a0007"
    Written lookup ⟨500, .contentHash, 7⟩ ∧ (load lookup).1 = .ok ⟨500, .contentHash, 7⟩ := by
  intro lookup
  have hwritten : Written lookup ⟨500, .contentHash, 7⟩ := by
    refine ⟨⟨_, rfl, [' '], ['+'], 2, ['\t'], ?_⟩,
      ⟨_, rfl, ['\u3000'], "Content-HASH".toList, ['\n'], ?_⟩,
      ⟨_, rfl, ['\u00a0'], [], 2, [], ?_⟩⟩
    · exact ⟨by decide +kernel, by decide +kernel, .inr rfl, by decide +kernel⟩
    · exact ⟨by decide +kernel, by decide +kernel, by decide +kernel, by decide +kernel⟩
    · exact ⟨by decide +kernel, by decide +kernel, .inl rfl, by decide +kernel⟩
  exact ⟨hwritten, (settings_read_iff_variables_valid lookup).2.2.2.2.2 _ hwritten⟩

-- The strategy is at fault too, but nobody asks for it.
example : load (fun _ => some " -3") = (.error ⟨.capacity, " -3".toList⟩, [.capacity]) := by
  decide +kernel

end Settings

end WriteMemo
