import Bedjet.Cli.Borrowing

/-!
`discover`, which connects to nothing: it scans, so many times, and lists what it saw,
what of it is ours, and which of ours it did not see. A single scan is a sample, so what
counts is what all of them saw together.
-/

namespace Bedjet.Cli

open Asyncio Python Device Device.Registry

/-! ### Scans -/

/-- An entry of what `BleakScanner.discover` returns: the device, and its advertisement. -/
structure Advertisement where
  address : String
  name : Option String
  localName : Option String
  rssi : Option ℤ
  serviceUuids : List String
  manufacturerData : List (ℕ × Bytes)

/-- `NAME_PREFIXES`, in upper case -/
def namePrefixes : List (List Char) := [upper "BEDJET".toList, upper "BedJet".toList]

/-- `adv.local_name or device.name` -/
def Advertisement.shownName (adv : Advertisement) : Option String :=
  match adv.localName with
  | none | some "" => adv.name
  | some name => some name

/-- `looks_like_bedjet` -/
def Advertisement.looksLikeBedjet (adv : Advertisement) : Bool :=
  (adv.serviceUuids.map lower).contains (lower serviceUuid) ||
    match adv.shownName with
    | some name => namePrefixes.any fun start => start.isPrefixOf (upper name.toList)
    | none => false

/-- What a scan sorts by. -/
def DiscoveredDevice.strength (d : DiscoveredDevice) : ℤ :=
  d.rssi.getD (-999)

/-- `scan`, of what the scanner returned: the strongest first. -/
def scanResults (allDevices : Bool) (results : List Advertisement) : List DiscoveredDevice :=
  let found := (results.filter fun adv => allDevices || adv.looksLikeBedjet).map fun adv =>
    { address := adv.address
      name := adv.shownName
      rssi := adv.rssi
      serviceUuids := adv.serviceUuids.map lower
      manufacturerData := adv.manufacturerData : DiscoveredDevice }
  found.mergeSort fun d d' => decide (d'.strength ≤ d.strength)

/-! ### discover -/

structure DiscoverArgs where
  timeout : ℚ := 10
  all : Bool := false
  /-- `--repeat` -/
  rounds : ℤ := 1
  interval : ℚ := 5

/-- `seen`: what was seen of each device, by its lower-case address. -/
abbrev Sightings := Dict String (List DiscoveredDevice)

/-- `seen.setdefault(device.address.lower(), []).append(device)` -/
def Sightings.record (seen : Sightings) (d : DiscoveredDevice) : Sightings :=
  seen.set (lower d.address) ((seen.get (lower d.address)).getD [] ++ [d])

section

variable (args : DiscoverArgs) (known : Dict String KnownDevice)

/-- `_short` -/
def short (address : String) : String :=
  match known.get (lower address) with
  | some entry => entry.label
  | none => String.ofList (address.toList.takeWhile (· ≠ '-')) ++ "…"

def rssiText : Option ℤ → String
  | some rssi => toString rssi
  | none => "None"

/-- What is printed of one round, where there are several. -/
def roundTexts (devices : List DiscoveredDevice) : List String :=
  let readings := devices.map fun d => s!"{short known d.address} {rssiText d.rssi}dBm"
  if 1 < args.rounds then
    ["  → " ++ if devices.isEmpty then "nothing" else ", ".intercalate readings]
  else []

/-- The pause before the next round. -/
def pause (index : ℕ) : Command Unit :=
  if 1 < args.rounds ∧ index + 1 < args.rounds then Command.ask (.sleep args.interval)
  else .ret ()

/-- The rounds that are left, of which this is the first. -/
def scanRounds : ℕ → ℕ → Sightings → Command Sightings
  | 0, _, seen => .ret seen
  | left + 1, index, seen => do
      Command.print
        (if 1 < args.rounds then
          s!"Scan {index + 1}/{args.rounds} ({fixed 0 args.timeout}s)..."
        else s!"Scanning for {fixed 0 args.timeout}s...")
      let devices ← Command.ask (.scan args.timeout args.all)
      Command.printAll ((roundTexts args known devices).map .ok)
      pause args index
      scanRounds left (index + 1) (devices.foldl Sightings.record seen)

def nothingFound : List String := [
  "\nNo BedJet found in any scan.",
  "  · Is the unit powered?",
  "  · Is the vendor app connected? Only one BLE client at a time is allowed,",
  "    and many BLE peripherals stop advertising entirely while connected.",
  "  · Are you within ~10m, ideally same room?",
  "  · Try --all to list every nearby device, in case ours advertises",
  "    under a name we do not recognise.",
  "  · Try --repeat 5: a single scan is a sample, not a census (RL-008)."]

def DiscoveredDevice.describe (d : DiscoveredDevice) : String :=
  let name := match d.name with
    | none | some "" => "(unnamed)"
    | some name => name
  let rssi := match d.rssi with
    | some rssi => s!"{rssi} dBm"
    | none => "rssi unknown"
  s!"{name}  {d.address}  {rssi}"

/-- What several rounds say of the link. -/
def spreadTexts (samples : List DiscoveredDevice) : List String :=
  let rssis := samples.filterMap (·.rssi)
  match rssis.min?, rssis.max? with
  | some low, some high =>
      (s!"      seen in {samples.length}/{args.rounds} scans, {low}..{high} dBm " ++
        s!"(spread {high - low} dB)") ::
      if 10 ≤ high - low then [
        s!"      ⚠️  {high - low} dB swing while stationary — marginal link. Connects may " ++
        "fail intermittently."]
      else []
  | _, _ => [s!"      seen in {samples.length}/{args.rounds} scans, rssi unknown"]

def manufacturerText (data : ℕ × Bytes) : String :=
  let digits := Nat.toDigits 16 data.1
  let company := String.ofList (List.replicate (4 - digits.length) '0' ++ digits)
  s!"      mfr 0x{company}: {hex data.2}"

/-- What is listed of a device, by what was seen of it. -/
def listingTexts (address : String) (samples : List DiscoveredDevice) : List String :=
  match samples.getLast? with
  | none => []
  | some latest =>
      s!"  {latest.describe}" ::
      (if 1 < args.rounds then spreadTexts args samples else []) ++
      (if latest.serviceUuids.isEmpty then []
        else ["      services: " ++ ", ".intercalate latest.serviceUuids]) ++
      latest.manufacturerData.map manufacturerText ++
      (if latest.serviceUuids.contains (lower serviceUuid) then
        ["      ✅ advertises the BedJet service UUID"]
        else []) ++
      [match known.get address with
        | some entry => s!"      ✅ ours: {entry.label}"
        | none => "      ⛔ not in the device registry — will not be connected to",
      ""]

/-- Ours that were not seen. -/
def missing (seen : Sightings) : List KnownDevice :=
  known.values.filter fun d => !(seen.keys.contains (lower d.address))

def absentTexts (absent : KnownDevice) : List String := [
  s!"  ⚠️  registered device '{absent.label}' was not seen in any scan.",
  "      Powered? Vendor app holding the link? On macOS the address is a",
  "      host-local UUID and can change if the device rotates its BLE address.\n"]

def unregisteredTexts (target : String) (seen : Sightings) : List String :=
  let count := seen.keys.countP fun address => (known.get address).isNone
  if count = 0 then []
  else [
    s!"{count} device(s) are not registered as ours. A BedJet in radio range looks\n" ++
    "identical to yours — same name, same service UUID, no manufacturer data. " ++
    "Identify\nyours with the power test (RL-006) before adding it to " ++
    s!"{target}.\n"]

def discoveryTexts (target : String) (seen : Sightings) : List String :=
  s!"\nFound {seen.length} device(s) across {args.rounds} scan(s):\n" ::
  seen.flatMap (fun item => listingTexts args known item.1 item.2) ++
  (missing known seen).flatMap absentTexts ++ unregisteredTexts known target seen ++
  ["Record these observations in docs/research/RESEARCH-LOG.md before you forget them."]

/-- The end of `cmd_discover`. -/
def conclude (target : String) (seen : Sightings) : Command ℕ :=
  if seen.isEmpty then do
    Command.printAll (nothingFound.map .ok)
    return 1
  else do
    Command.printAll ((discoveryTexts args known target seen).map .ok)
    return if (missing known seen).isEmpty then 0 else 1

end

def cmdDiscover (file : RegistryFile) (target : String) (args : DiscoverArgs) : Command ℕ :=
  match load file with
  | .error e => .raise (.registry e)
  | .ok known => do
      let seen ← scanRounds args known args.rounds.toNat 0 []
      conclude args known target seen

/-! ### What its exit code tells -/

/-- A device with this lower-case address was seen in one of the scans. -/
def Seen (h : List Step) (address : String) : Prop :=
  ∃ (timeout : ℚ) (all : Bool) (devices : List DiscoveredDevice),
    ⟨.scan timeout all, .ok devices⟩ ∈ h ∧ ∃ d ∈ devices, lower d.address = address

section

variable {args : DiscoverArgs} {known : Dict String KnownDevice} {h h₁ h₂ : List Step}
  {seen : Sightings} {file : RegistryFile} {target address : String}

theorem seen_append : Seen (h₁ ++ h₂) address ↔ Seen h₁ address ∨ Seen h₂ address := by
  constructor
  · rintro ⟨timeout, all, devices, hmem, hd⟩
    rcases List.mem_append.mp hmem with hmem | hmem
    · exact .inl ⟨timeout, all, devices, hmem, hd⟩
    · exact .inr ⟨timeout, all, devices, hmem, hd⟩
  · rintro (⟨timeout, all, devices, hmem, hd⟩ | ⟨timeout, all, devices, hmem, hd⟩)
    · exact ⟨timeout, all, devices, List.mem_append_left _ hmem, hd⟩
    · exact ⟨timeout, all, devices, List.mem_append_right _ hmem, hd⟩

def Op.isScan : Op → Bool
  | .scan _ _ => true
  | _ => false

theorem not_seen (hnone : ∀ e ∈ h, e.operation.isScan = false) : ¬Seen h address := by
  rintro ⟨timeout, all, devices, hmem, -⟩
  exact absurd (hnone _ hmem) (by simp [Op.isScan])

theorem seen_scan {timeout : ℚ} {all : Bool} {devices : List DiscoveredDevice} :
    Seen [⟨.scan timeout all, .ok devices⟩] address ↔ ∃ d ∈ devices, lower d.address = address := by
  constructor
  · rintro ⟨timeout', all', devices', hmem, hd⟩
    cases List.mem_singleton.mp hmem
    exact hd
  · exact fun hd => ⟨timeout, all, devices, List.mem_singleton_self _, hd⟩

theorem mem_keys_record {devices : List DiscoveredDevice} :
    address ∈ (devices.foldl Sightings.record seen).keys ↔
      address ∈ seen.keys ∨ ∃ d ∈ devices, lower d.address = address := by
  induction devices generalizing seen with
  | nil => simp
  | cons d devices ih =>
      rw [List.foldl_cons, ih, Sightings.record, Dict.mem_keys_set]
      simp only [List.mem_cons, exists_eq_or_imp, eq_comm (a := address)]
      tauto

theorem runs_printAll (texts : List String) :
    ∃ h, (Command.printAll (texts.map .ok)).Runs h (.returned ()) := by
  induction texts with
  | nil => exact ⟨[], .ret ()⟩
  | cons text texts ih =>
      obtain ⟨h, hprint⟩ := ih
      have hfirst : (Command.print text).Runs [⟨.print text, .ok ()⟩] (.returned ()) :=
        Coroutine.runs_ask (κ := Op.Answer) (i := .print text) ()
      exact ⟨_, Coroutine.runs_bind hfirst hprint⟩

theorem strict_printAll (texts : List String) : (Command.printAll (texts.map .ok)).Strict := by
  induction texts with
  | nil => exact Coroutine.strict_ret ()
  | cons text texts ih => exact Coroutine.Strict.bind (Coroutine.strict_ask _) fun _ => ih

theorem pause_eq (a : DiscoverArgs) (index : ℕ) :
    pause a index = Command.ask (.sleep a.interval) ∨ pause a index = .ret () := by
  by_cases hmore : 1 < a.rounds ∧ index + 1 < a.rounds
  · exact .inl (if_pos hmore)
  · exact .inr (if_neg hmore)

theorem strict_pause (index : ℕ) : (pause args index).Strict := by
  obtain hpause | hpause := pause_eq args index
  · rw [hpause]
    exact Coroutine.strict_ask _
  · rw [hpause]
    exact Coroutine.strict_ret ()

theorem strict_scanRounds (left index : ℕ) : (scanRounds args known left index seen).Strict := by
  induction left generalizing index seen with
  | zero => exact Coroutine.strict_ret seen
  | succ left ih =>
      refine Coroutine.Strict.bind (Coroutine.strict_ask _) fun _ => ?_
      refine Coroutine.Strict.bind (Coroutine.strict_ask _) fun devices => ?_
      exact (strict_printAll _).bind fun _ => (strict_pause index).bind fun _ => ih _

/-- Every scan that returned is in what the rounds come to. -/
theorem mem_keys_scanRounds {left index : ℕ} {seen' : Sightings}
    (hruns : (scanRounds args known left index seen).Runs h (.returned seen')) (address : String) :
    address ∈ seen'.keys ↔ address ∈ seen.keys ∨ Seen h address := by
  have hquiet {h : List Step} {c : Command Unit} {o : Progress CliError Unit}
      (hc : c.Asks (·.isScan = false)) (hruns : c.Runs h o) : ¬Seen h address :=
    not_seen (hc h o hruns)
  induction left generalizing index seen h with
  | zero =>
      obtain ⟨rfl, rfl⟩ := hruns.of_ret_returned
      have hnone : ¬Seen [] address := not_seen (by simp)
      simp [hnone]
  | succ left ih =>
      obtain ⟨_, h₁, h₂, hprint, hruns₁, rfl⟩ := hruns.of_bind_returned
      obtain ⟨devices, h₃, h₄, hscan, hruns₂, rfl⟩ := hruns₁.of_bind_returned
      obtain ⟨_, h₅, h₆, htexts, hruns₃, rfl⟩ := hruns₂.of_bind_returned
      obtain ⟨_, h₇, h₈, hpause, hruns₄, rfl⟩ := hruns₃.of_bind_returned
      obtain rfl := hscan.of_ask_returned
      have hpauses : (pause args index).Asks (·.isScan = false) := by
        obtain heq | heq := pause_eq args index
        · rw [heq]
          exact Coroutine.asks_ask rfl
        · rw [heq]
          exact Coroutine.asks_ret ()
      have hfirst := hquiet (asks_print (fun _ => rfl) _) hprint
      have hbetween := hquiet (asks_printAll (fun _ => rfl) _) htexts
      have hafter := hquiet hpauses hpause
      refine (ih hruns₄).trans ((or_congr_left mem_keys_record).trans ?_)
      simp only [seen_append, hfirst, hbetween, hafter, false_or, or_assoc]
      exact or_congr_right (or_congr_left seen_scan.symm)

theorem strict_conclude : (conclude args known target seen).Strict := by
  unfold conclude
  split
  · exact (strict_printAll _).bind fun _ => Coroutine.strict_ret _
  · exact (strict_printAll _).bind fun _ => Coroutine.strict_ret _

/-- Something was seen, and all that is registered. -/
theorem conclude_returned {code : ℕ}
    (hruns : (conclude args known target seen).Runs h (.returned code)) :
    (code = 0 ↔ seen.keys ≠ [] ∧ ∀ d ∈ known.values, lower d.address ∈ seen.keys) ∧
      ∀ e ∈ h, e.operation.isScan = false := by
  have hquiet {h : List Step} {texts : List String}
      (hruns : (Command.printAll (texts.map .ok)).Runs h (.returned ())) :
      ∀ e ∈ h, e.operation.isScan = false :=
    asks_printAll (S := (·.isScan = false)) (fun _ => rfl) _ h _ hruns
  unfold conclude at hruns
  by_cases hempty : seen.isEmpty
  · rw [if_pos hempty] at hruns
    obtain ⟨_, h₁, h₂, htexts, hret, rfl⟩ := hruns.of_bind_returned
    obtain ⟨rfl, rfl⟩ := hret.of_ret_returned
    rw [List.isEmpty_iff] at hempty
    subst hempty
    exact ⟨by simp [Dict.keys], by simpa using hquiet htexts⟩
  · rw [if_neg hempty] at hruns
    obtain ⟨_, h₁, h₂, htexts, hret, rfl⟩ := hruns.of_bind_returned
    obtain ⟨rfl, rfl⟩ := hret.of_ret_returned
    rw [List.isEmpty_iff] at hempty
    refine ⟨?_, by simpa using hquiet htexts⟩
    have hmissing : (missing known seen).isEmpty ↔
        ∀ d ∈ known.values, lower d.address ∈ seen.keys := by
      simp [missing, List.isEmpty_iff, List.filter_eq_nil_iff]
    have hkeys : seen.keys ≠ [] := by simpa [Dict.keys] using hempty
    by_cases hall : (missing known seen).isEmpty
    · simp [hall, hkeys, ← hmissing]
    · simp [hall, hkeys, ← hmissing]

/-- In every run of `discover`, the exit code is 0 if and only if nothing failed, and the
scans together have seen something, and every registered device. -/
theorem discover_exit_iff {code : ℕ}
    (hruns : (main (cmdDiscover file target args)).Runs h (.returned code)) :
    code = 0 ↔ Coroutine.Unfailing h ∧ (∃ address, Seen h address) ∧
      ∃ known, load file = .ok known ∧ ∀ d ∈ known.values, Seen h (lower d.address) := by
  rcases hruns.of_tryExcept with
    ⟨hdiscover, -⟩ | ⟨e, clause, h₁, h₂, hdiscover, hclause, hrest, rfl⟩
  · unfold cmdDiscover at hdiscover
    cases hload : load file with
    | error e =>
        rw [hload] at hdiscover
        cases hdiscover
    | ok known =>
        rw [hload] at hdiscover
        obtain ⟨seen, h₁, h₂, hscans, hconclude, rfl⟩ := hdiscover.of_bind_returned
        have hunfailing : Coroutine.Unfailing (h₁ ++ h₂) :=
          Coroutine.unfailing_append.mpr
            ⟨(strict_scanRounds _ _ _ _ hscans).1 _ rfl, (strict_conclude _ _ hconclude).1 _ rfl⟩
        obtain ⟨hcode, hquiet⟩ := conclude_returned hconclude
        have hkeys (address : String) : Seen (h₁ ++ h₂) address ↔ address ∈ seen.keys := by
          have hnone : ¬Seen h₂ address := not_seen hquiet
          have hempty : address ∉ Dict.keys ([] : Sightings) := by simp [Dict.keys]
          rw [seen_append, mem_keys_scanRounds hscans address]
          tauto
        have hany : (∃ address, address ∈ seen.keys) ↔ seen.keys ≠ [] := by
          refine ⟨?_, List.exists_mem_of_ne_nil _⟩
          rintro ⟨address, hmem⟩
          exact List.ne_nil_of_mem hmem
        simp only [hkeys, hcode, hany, hunfailing, true_and, Except.ok.injEq,
          exists_eq_left']
  · obtain ⟨code', rfl, hfailed⟩ := exitCode_clause hclause
    obtain ⟨rfl, rfl⟩ := hrest.of_ret_returned
    rw [List.append_nil]
    refine ⟨fun hzero => by omega, ?_⟩
    rintro ⟨hunfailing, -, known, hload, -⟩
    unfold cmdDiscover at hdiscover
    rw [hload] at hdiscover
    have hstrict : Coroutine.Strict ((scanRounds args known args.rounds.toNat 0 []).bind fun seen =>
        conclude args known target seen) :=
      (strict_scanRounds _ _).bind fun _ => strict_conclude
    exact absurd hunfailing ((hstrict _ _ hdiscover).2 e rfl)

/-- A registry of one device. -/
def bedroom : RegistryFile :=
  .devices [("bedroom", { address := some "AA:01" })]

/-- It is seen in a scan. -/
def bedroomAnswers : (op : Op) → Except CliError op.Answer
  | .scan _ _ => .ok [⟨"aa:01", some "BedJet", some (-60), [], []⟩]
  | .print _ => .ok ()
  | _ => .error .cancelledError

theorem discover_exit_iff_bedroom :
    ∃ h, (main (cmdDiscover bedroom "devices.local.toml" {})).Runs h (.returned 0) ∧
      Coroutine.Unfailing h ∧ (∃ address, Seen h address) ∧
      ∃ known, load bedroom = .ok known ∧ ∀ d ∈ known.values, Seen h (lower d.address) := by
  have hupper : lower "AA:01" = "aa:01" := by decide +kernel
  have hlower : lower "aa:01" = "aa:01" := by decide +kernel
  let d : DiscoveredDevice := ⟨"aa:01", some "BedJet", some (-60), [], []⟩
  let known : Dict String KnownDevice := [("aa:01", { address := "AA:01", label := "bedroom" })]
  have hload : load bedroom = .ok known := by
    simp [load, bedroom, loadEntries, Dict.set, Dict.keys, hupper, known]
  have hrecord : Sightings.record [] d = [("aa:01", [d])] := by
    simp [Sightings.record, Dict.set, Dict.keys, Dict.get, hlower, d]
  have hscans : (scanRounds {} known 1 0 []).Runs
      ((scanRounds {} known 1 0 []).play bedroomAnswers).1 (.returned (Sightings.record [] d)) :=
    Coroutine.runs_play _ _
  rw [hrecord] at hscans
  have hmissing : missing known [("aa:01", [d])] = [] := by
    simp [missing, Dict.values, Dict.keys, hupper, known]
  obtain ⟨h, hprint⟩ := runs_printAll
    (discoveryTexts {} known "devices.local.toml" [("aa:01", [d])])
  have hconclude : (conclude {} known "devices.local.toml" [("aa:01", [d])]).Runs (h ++ [])
      (.returned 0) := by
    refine Coroutine.runs_bind hprint ?_
    rw [hmissing]
    exact .ret 0
  have hruns : ∃ h, (main (cmdDiscover bedroom "devices.local.toml" {})).Runs h (.returned 0) := by
    rw [cmdDiscover, hload]
    exact ⟨_, Coroutine.runs_tryExcept (Coroutine.runs_bind hscans hconclude)⟩
  obtain ⟨h, hruns⟩ := hruns
  exact ⟨h, hruns, (discover_exit_iff hruns).mp rfl⟩

end

end Bedjet.Cli
