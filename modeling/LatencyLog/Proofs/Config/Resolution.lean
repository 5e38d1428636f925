import LatencyLog.Config.Basic

/-!
# Resolving a configuration

A configuration is put together from three sources: the defaults, the settings of a file, and a flag. Two
questions are easily mixed up there. *Which value counts* is a matter of precedence, and the flag comes
first. *Whether there is a configuration* is a matter of the settings alone (`Settings.Sound`), as they are
checked before the flag is looked at: a flag does not make up for a bad frequency that it would have replaced.

What is wrong with settings is their `Settings.Fault`, with one constructor for each error. Settings are sound
or have a fault (`Settings.sound_or_fault`), sound ones are resolved (`resolve_of_sound`), and a fault is what
is reported (`resolve_of_fault`). So no settings have two faults, although it does not look so: a hop is at
fault only in settings whose frequency is sound, and only if every hop before it has both its tags.
-/

namespace LatencyLog

open Binary64 (zero)

/-! ## Frequencies -/

namespace Frequency

variable {ghz : Binary64}

theorem eq_of_ghz_eq {f g : Frequency} (h : f.ghz = g.ghz) : f = g := by
  cases f
  cases g
  cases h
  rfl

theorem finite_and_pos (f : Frequency) : f.ghz.isFinite = true ∧ zero.lt f.ghz = true :=
  (Bool.and_eq_true_iff.mp f.usable).symm

theorem ofGhz_of_sound (hfinite : ghz.isFinite = true) (hpos : zero.lt ghz = true) :
    ofGhz ghz = .ok ⟨ghz, Bool.and_eq_true_iff.mpr ⟨hpos, hfinite⟩⟩ := by
  have husable : ghz.isUsable = true := Bool.and_eq_true_iff.mpr ⟨hpos, hfinite⟩
  rw [ofGhz, if_pos hfinite, dif_pos husable]

theorem ofGhz_of_infinite (h : ghz.isFinite = false) : ofGhz ghz = .error (.notFinite ghz) := by
  rw [ofGhz, if_neg (Bool.not_eq_true _ ▸ h)]

theorem ofGhz_of_nonPositive (hfinite : ghz.isFinite = true) (hpos : zero.lt ghz = false) :
    ofGhz ghz = .error (.nonPositive ghz) := by
  have husable : ¬ ghz.isUsable = true := by
    rw [Binary64.isUsable, hpos]
    exact Bool.false_ne_true
  rw [ofGhz, if_pos hfinite, dif_neg husable]

theorem ghz_default : default.ghz = .ofDecimal false 260 (-2) := by decide +kernel

end Frequency

/-! ## Hops -/

/-- Both ends of a hop have a tag. -/
def Hop.Tagged (hop : Hop) : Prop := hop.source ≠ "" ∧ hop.destination ≠ ""

instance (hop : Hop) : Decidable hop.Tagged := inferInstanceAs (Decidable (_ ∧ _))

/-- The hop at a place in a list lacks a tag, and none of those before it does. -/
structure Topology.FirstUntagged (hops : Topology) (index : Nat) (hop : Hop) : Prop where
  at_index : hops[index]? = some hop
  untagged : ¬ hop.Tagged
  before : ∀ i < index, ∀ hop', hops[i]? = some hop' → hop'.Tagged

namespace Topology

variable {hops : Topology} {hop head : Hop} {index : Nat}

theorem tagged_pipeline : ∀ hop ∈ pipeline, hop.Tagged := by decide

theorem FirstUntagged.cons (hhead : head.Tagged) (h : FirstUntagged hops index hop) :
    FirstUntagged (head :: hops) (index + 1) hop where
  at_index := h.at_index
  untagged := h.untagged
  before i hi hop' hget := by
    cases i with
    | zero =>
      cases hget
      exact hhead
    | succ i => exact h.before i (Nat.lt_of_succ_lt_succ hi) hop' hget

theorem FirstUntagged.of_cons (h : FirstUntagged (head :: hops) (index + 1) hop) :
    head.Tagged ∧ FirstUntagged hops index hop where
  left := h.before 0 (Nat.succ_pos index) head rfl
  right := ⟨h.at_index, h.untagged, fun i hi hop' hget =>
    h.before (i + 1) (Nat.succ_lt_succ hi) hop' hget⟩

/-- Hops have all their tags, or there is a first one that has not. -/
theorem tagged_or_first (hops : Topology) :
    (∀ hop ∈ hops, hop.Tagged) ∨ ∃ index hop, FirstUntagged hops index hop := by
  induction hops with
  | nil => exact Or.inl fun _ h => absurd h List.not_mem_nil
  | cons head hops ih =>
    by_cases hhead : head.Tagged
    · rcases ih with hall | ⟨index, hop, hfirst⟩
      · exact Or.inl (List.forall_mem_cons.mpr ⟨hhead, hall⟩)
      · exact Or.inr ⟨index + 1, hop, hfirst.cons hhead⟩
    · exact Or.inr ⟨0, head, rfl, hhead, fun i hi => absurd hi (Nat.not_lt_zero i)⟩

end Topology

/-! ## Settings -/

namespace Settings

/-- The frequency of a file, if it has one, is one. -/
def FrequencySound (settings : Settings) : Prop :=
  ∀ ghz, settings.ghz = some ghz → ghz.isFinite = true ∧ zero.lt ghz = true

/-- There is nothing to keep settings from making a configuration. -/
structure Sound (settings : Settings) : Prop where
  frequency : settings.FrequencySound
  topology : ∀ hops, settings.topology = some hops → ∀ hop ∈ hops, hop.Tagged

/-- What is wrong with settings. The frequency comes before the hops, the first hop before the others, and
its source before its destination. -/
inductive Fault (settings : Settings) : ConfigError → Prop where
  | notFinite {ghz : Binary64} (given : settings.ghz = some ghz) (infinite : ghz.isFinite = false) :
    Fault settings (.frequency (.notFinite ghz))
  | nonPositive {ghz : Binary64} (given : settings.ghz = some ghz) (finite : ghz.isFinite = true)
    (pos : zero.lt ghz = false) : Fault settings (.frequency (.nonPositive ghz))
  | source {hops : Topology} {index : Nat} {hop : Hop} (frequency : settings.FrequencySound)
    (given : settings.topology = some hops) (first : hops.FirstUntagged index hop)
    (empty : hop.source = "") : Fault settings (.emptyTag index .source)
  | destination {hops : Topology} {index : Nat} {hop : Hop} (frequency : settings.FrequencySound)
    (given : settings.topology = some hops) (first : hops.FirstUntagged index hop)
    (filled : hop.source ≠ "") : Fault settings (.emptyTag index .destination)

theorem frequencySound_or_fault (settings : Settings) :
    settings.FrequencySound ∨ ∃ e, settings.Fault e := by
  cases hghz : settings.ghz with
  | none => exact Or.inl fun ghz h => nomatch hghz.symm.trans h
  | some ghz =>
    cases hfinite : ghz.isFinite with
    | false => exact Or.inr ⟨_, .notFinite hghz hfinite⟩
    | true =>
      cases hpos : zero.lt ghz with
      | false => exact Or.inr ⟨_, .nonPositive hghz hfinite hpos⟩
      | true =>
        refine Or.inl fun ghz' h => ?_
        obtain rfl : ghz = ghz' := Option.some.inj (hghz.symm.trans h)
        exact ⟨hfinite, hpos⟩

/-- **Settings are sound, or there is something wrong with them.** -/
theorem sound_or_fault (settings : Settings) : settings.Sound ∨ ∃ e, settings.Fault e := by
  rcases settings.frequencySound_or_fault with hfrequency | hfault
  · cases hhops : settings.topology with
    | none => exact Or.inl ⟨hfrequency, fun hops h => nomatch hhops.symm.trans h⟩
    | some hops =>
      rcases hops.tagged_or_first with hall | ⟨index, hop, hfirst⟩
      · refine Or.inl ⟨hfrequency, fun hops' h => ?_⟩
        obtain rfl : hops = hops' := Option.some.inj (hhops.symm.trans h)
        exact hall
      · by_cases hsource : hop.source = ""
        · exact Or.inr ⟨_, .source hfrequency hhops hfirst hsource⟩
        · exact Or.inr ⟨_, .destination hfrequency hhops hfirst hsource⟩
  · exact Or.inr hfault

end Settings

/-! ## From settings to a configuration -/

namespace Config

variable {settings : Settings} {hops : Topology} {hop : Hop} {start index : Nat} {e : Hop.End}

theorem emptyEnd?_of_tagged (h : hop.Tagged) : emptyEnd? hop = none := by
  rw [emptyEnd?, if_neg h.1, if_neg h.2]

theorem emptyTagFrom?_of_tagged (h : ∀ hop ∈ hops, hop.Tagged) : emptyTagFrom? start hops = none := by
  induction hops generalizing start with
  | nil => rfl
  | cons head hops ih =>
    rw [List.forall_mem_cons] at h
    rw [emptyTagFrom?, emptyEnd?_of_tagged h.1]
    exact ih h.2

theorem emptyTagFrom?_of_first (hfirst : hops.FirstUntagged index hop)
    (hend : emptyEnd? hop = some e) : emptyTagFrom? start hops = some (start + index, e) := by
  induction hops generalizing start index with
  | nil => cases hfirst.at_index
  | cons head hops ih =>
    cases index with
    | zero =>
      cases hfirst.at_index
      rw [emptyTagFrom?, hend]
      rfl
    | succ index =>
      obtain ⟨hhead, hrest⟩ := hfirst.of_cons
      rw [emptyTagFrom?, emptyEnd?_of_tagged hhead, Nat.add_comm index, ← Nat.add_assoc]
      exact ih hrest

theorem frequencyOf_of_sound (h : settings.FrequencySound) :
    ∃ f, frequencyOf settings = .ok f ∧ f.ghz = settings.ghz.getD (.ofDecimal false 260 (-2)) := by
  unfold frequencyOf
  cases hghz : settings.ghz with
  | none =>
    rw [Option.getD_none]
    exact ⟨.default, rfl, Frequency.ghz_default⟩
  | some ghz =>
    obtain ⟨hfinite, hpos⟩ := h ghz hghz
    exact ⟨_, congrArg (Except.mapError _) (Frequency.ofGhz_of_sound hfinite hpos), rfl⟩

theorem frequencyOf_of_error {ghz : Binary64} {e : FrequencyError} (given : settings.ghz = some ghz)
    (h : Frequency.ofGhz ghz = .error e) : frequencyOf settings = .error (.frequency e) := by
  rw [frequencyOf, given]
  exact congrArg (Except.mapError _) h

theorem topologyOf_of_sound (h : settings.Sound) :
    topologyOf settings = .ok (settings.topology.getD .pipeline) := by
  unfold topologyOf
  cases hhops : settings.topology with
  | none => rfl
  | some hops =>
    have htagged := h.topology hops hhops
    simp only [emptyTagFrom?_of_tagged htagged, Option.getD_some]

theorem topologyOf_of_first (hhops : settings.topology = some hops)
    (hfirst : hops.FirstUntagged index hop) (hend : emptyEnd? hop = some e) :
    topologyOf settings = .error (.emptyTag index e) := by
  simp only [topologyOf, hhops, emptyTagFrom?_of_first hfirst hend, Nat.zero_add]

/-- The configuration of settings and a flag. -/
def resolve (flag : Option Frequency) (settings : Settings) : Except ConfigError Config :=
  (ofSettings settings).map fun config => config.withFlag flag

/-- **Sound settings are resolved**, the flag before the file and the file before the default. -/
theorem resolve_of_sound (h : settings.Sound) (flag : Option Frequency) :
    ∃ config, resolve flag settings = .ok config ∧
      config.frequency.ghz =
        (flag.map Frequency.ghz).getD (settings.ghz.getD (.ofDecimal false 260 (-2))) ∧
      config.topology = settings.topology.getD .pipeline := by
  obtain ⟨f, hf, hghz⟩ := frequencyOf_of_sound h.frequency
  refine ⟨⟨flag.getD f, settings.topology.getD .pipeline⟩, ?_, ?_, rfl⟩
  · rw [resolve, ofSettings, hf, topologyOf_of_sound h]
    rfl
  · cases flag with
    | none => exact hghz
    | some _ => rfl

theorem resolve_of_frequencyOf_error {e : ConfigError} (h : frequencyOf settings = .error e)
    (flag : Option Frequency) : resolve flag settings = .error e := by
  rw [resolve, ofSettings, h]
  rfl

theorem resolve_of_topologyOf_error {e : ConfigError} (hfrequency : settings.FrequencySound)
    (h : topologyOf settings = .error e) (flag : Option Frequency) :
    resolve flag settings = .error e := by
  obtain ⟨f, hf, _⟩ := frequencyOf_of_sound hfrequency
  rw [resolve, ofSettings, hf, h]
  rfl

/-- **A fault is reported**, whatever the flag. -/
theorem resolve_of_fault {e : ConfigError} (h : settings.Fault e) (flag : Option Frequency) :
    resolve flag settings = .error e := by
  cases h with
  | notFinite given infinite =>
    refine resolve_of_frequencyOf_error ?_ flag
    exact frequencyOf_of_error given (Frequency.ofGhz_of_infinite infinite)
  | nonPositive given finite pos =>
    refine resolve_of_frequencyOf_error ?_ flag
    exact frequencyOf_of_error given (Frequency.ofGhz_of_nonPositive finite pos)
  | source frequency given first empty =>
    refine resolve_of_topologyOf_error frequency (topologyOf_of_first given first ?_) flag
    rw [emptyEnd?, if_pos empty]
  | destination frequency given first filled =>
    refine resolve_of_topologyOf_error frequency (topologyOf_of_first given first ?_) flag
    have hempty := Decidable.not_not.mp fun h => first.untagged ⟨filled, h⟩
    rw [emptyEnd?, if_neg filled, if_pos hempty]

theorem eq_of_frequency_of_topology {config config' : Config}
    (hghz : config.frequency.ghz = config'.frequency.ghz)
    (htopology : config.topology = config'.topology) : config = config' := by
  cases config
  cases config'
  cases Frequency.eq_of_ghz_eq hghz
  cases htopology
  rfl

theorem resolve_eq_ok_iff {flag : Option Frequency} {config : Config} :
    resolve flag settings = .ok config ↔ settings.Sound ∧
      config.frequency.ghz =
        (flag.map Frequency.ghz).getD (settings.ghz.getD (.ofDecimal false 260 (-2))) ∧
      config.topology = settings.topology.getD .pipeline := by
  constructor
  · intro h
    rcases settings.sound_or_fault with hsound | ⟨e, hfault⟩
    · obtain ⟨config', hconfig', hghz, htopology⟩ := resolve_of_sound hsound flag
      obtain rfl : config' = config := Except.ok.inj (hconfig'.symm.trans h)
      exact ⟨hsound, hghz, htopology⟩
    · cases (resolve_of_fault hfault flag).symm.trans h
  · rintro ⟨hsound, hghz, htopology⟩
    obtain ⟨config', hconfig', hghz', htopology'⟩ := resolve_of_sound hsound flag
    rw [hconfig', eq_of_frequency_of_topology (hghz'.trans hghz.symm) (htopology'.trans htopology.symm)]

theorem resolve_eq_error_iff {flag : Option Frequency} {e : ConfigError} :
    resolve flag settings = .error e ↔ settings.Fault e := by
  refine ⟨fun h => ?_, fun h => resolve_of_fault h flag⟩
  rcases settings.sound_or_fault with hsound | ⟨e', hfault⟩
  · obtain ⟨config, hconfig, _⟩ := resolve_of_sound hsound flag
    cases hconfig.symm.trans h
  · cases (resolve_of_fault hfault flag).symm.trans h
    exact hfault

theorem tagged_of_sound (h : settings.Sound) : ∀ hop ∈ settings.topology.getD .pipeline, hop.Tagged := by
  cases hhops : settings.topology with
  | none => exact Topology.tagged_pipeline
  | some hops => exact h.topology hops hhops

/-- **What settings and a flag resolve to.** The settings at a path are resolved in loading a configuration.
They are if they are sound, to the first frequency there is among that of the flag, that of the file and
2.60, and to the hops of the file, even to none, or else to the default ones. So a configuration has a
finite positive frequency and no empty tag. If they are not, what is reported is their fault. -/
theorem resolve_settings (flag : Option Frequency) (settings : Settings) :
    (∀ fs path, settingsAt fs path = .ok settings → load fs path flag = resolve flag settings) ∧
    ((∃ config, resolve flag settings = .ok config) ↔ settings.Sound) ∧
    (∀ config, resolve flag settings = .ok config ↔ settings.Sound ∧
      config.frequency.ghz =
        (flag.map Frequency.ghz).getD (settings.ghz.getD (.ofDecimal false 260 (-2))) ∧
      config.topology = settings.topology.getD .pipeline) ∧
    (∀ config, resolve flag settings = .ok config →
      config.frequency.ghz.isFinite = true ∧ zero.lt config.frequency.ghz = true ∧
      ∀ hop ∈ config.topology, hop.Tagged) ∧
    ∀ e, resolve flag settings = .error e ↔ settings.Fault e := by
  refine ⟨?_, ?_, fun config => resolve_eq_ok_iff, ?_, fun e => resolve_eq_error_iff⟩
  · intro fs path hsettings
    rw [load, hsettings]
    rfl
  · constructor
    · rintro ⟨config, hconfig⟩
      exact (resolve_eq_ok_iff.mp hconfig).1
    · intro hsound
      obtain ⟨config, hconfig, _⟩ := resolve_of_sound hsound flag
      exact ⟨config, hconfig⟩
  · intro config hconfig
    obtain ⟨hsound, _, htopology⟩ := resolve_eq_ok_iff.mp hconfig
    obtain ⟨hfinite, hpos⟩ := config.frequency.finite_and_pos
    rw [htopology]
    exact ⟨hfinite, hpos, tagged_of_sound hsound⟩

/-- A file system with nothing but a configuration file. -/
def withSettings (text : String) : FileSystem :=
  ⟨FileTree.empty.put ["latency.toml"] (.file (Text.Utf8.encode text.toList)), []⟩

/-- A frequency, and a hop that is in order. -/
def soundText : String := "cpu_freq_ghz = 3.1\nhops = [['in', 'out']]"

def soundSettings : Settings := ⟨some (.ofDecimal false 31 (-1)), some [⟨"in", "out"⟩]⟩

/-- What is no frequency, and a hop without a source. -/
def faultyText : String := "cpu_freq_ghz = nan\nhops = [['', 'out']]"

def faultySettings : Settings := ⟨some (.nan false), some [⟨"", "out"⟩]⟩

def twoGhz : Frequency := ⟨.ofNat 2, by decide +kernel⟩

theorem settingsAt_of_toOption {fs : FileSystem} {path : Option String}
    (h : (settingsAt fs path).toOption = some settings) : settingsAt fs path = .ok settings := by
  cases hread : settingsAt fs path with
  | error e =>
    rw [hread] at h
    cases h
  | ok settings' =>
    rw [hread] at h
    exact congrArg Except.ok (Option.some.inj h)

theorem sound_soundSettings : soundSettings.Sound where
  frequency ghz h := by
    obtain rfl := Option.some.inj h
    decide +kernel
  topology hops h := by
    obtain rfl := Option.some.inj h
    decide

/-- A flag replaces a frequency that is sound, and does not help with one that is not. -/
theorem resolve_settings_twoGhz :
    (∃ config, load (withSettings soundText) (some "latency.toml") (some twoGhz) = .ok config ∧
      config.frequency = twoGhz ∧ config.topology = [⟨"in", "out"⟩] ∧
      config.frequency.ghz.isFinite = true ∧ zero.lt config.frequency.ghz = true ∧
      ∀ hop ∈ config.topology, hop.Tagged) ∧
    load (withSettings faultyText) (some "latency.toml") (some twoGhz) =
      .error (.frequency (.notFinite (.nan false))) := by
  have hread : settingsAt (withSettings soundText) (some "latency.toml") = .ok soundSettings :=
    settingsAt_of_toOption (by decide +kernel)
  have hread' : settingsAt (withSettings faultyText) (some "latency.toml") = .ok faultySettings :=
    settingsAt_of_toOption (by decide +kernel)
  obtain ⟨hload, _, hok, husable, _⟩ := resolve_settings (some twoGhz) soundSettings
  obtain ⟨hload', _, _, _, herror⟩ := resolve_settings (some twoGhz) faultySettings
  have hresolved : resolve (some twoGhz) soundSettings = .ok ⟨twoGhz, [⟨"in", "out"⟩]⟩ := by
    refine (hok _).mpr ⟨sound_soundSettings, ?_, ?_⟩
    · rw [Option.map_some, Option.getD_some]
    · rw [soundSettings, Option.getD_some]
  refine ⟨⟨_, (hload _ _ hread).trans hresolved, rfl, rfl, husable _ hresolved⟩, ?_⟩
  exact (hload' _ _ hread').trans ((herror _).mpr (.notFinite rfl rfl))

end Config

end LatencyLog
