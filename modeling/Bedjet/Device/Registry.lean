import Bedjet.Python.Dict
import Bedjet.Python.Text

/-!
Which BedJets are ours: the registry of the devices that a human has identified, and
the refusal to connect to any other.
-/

namespace Bedjet.Device.Registry

open Python

/-- A `[device.<label>]` table of the registry file, with its values as `str` makes
them; a table may lack either. -/
structure RegistryEntry where
  address : Option String
  notes : Option String := none

/-- The registry file, as `tomllib` reads it. -/
inductive RegistryFile
  | missing
  | invalid (message : String)
  | devices (entries : List (String × RegistryEntry))

structure KnownDevice where
  address : String
  label : String
  notes : String := ""
  deriving DecidableEq

inductive RegistryError
  /-- `UnknownDeviceError` -/
  | unknownDevice (message : String)
  /-- `KeyError` -/
  | keyError (key : String)
  /-- `tomllib.TOMLDecodeError` -/
  | decodeError (message : String)

/-- The loop of `load`. -/
def loadEntries (devices : Dict String KnownDevice) :
    List (String × RegistryEntry) → Except RegistryError (Dict String KnownDevice)
  | [] => .ok devices
  | (label, entry) :: entries =>
      match entry.address with
      | none => .error (.keyError "address")
      | some address =>
          loadEntries (devices.set (lower address)
            { address, label, notes := entry.notes.getD "" }) entries

/-- The devices, by their lower-case addresses. -/
def load : RegistryFile → Except RegistryError (Dict String KnownDevice)
  | .missing => .ok []
  | .invalid message => .error (.decodeError message)
  | .devices entries => loadEntries [] entries

def lookup (file : RegistryFile) (address : String) :
    Except RegistryError (Option KnownDevice) := do
  let devices ← load file
  return devices.get (lower address)

/-- What is said where there is no registry. -/
def noRegistry (target address : String) : String :=
  s!"No device registry at {target}.\n" ++
  "Before connecting, establish which BedJet is yours — unplug it, re-run " ++
  "`bedjet discover`, and note which address disappears (see RL-006). Then:\n\n" ++
  "  [device.bedroom]\n" ++
  "  address = \"" ++ address ++ "\"\n" ++
  "  notes = \"identified by power test <date>\"\n\n" ++
  "This tool will not connect to an unregistered device. Any BedJet in radio " ++
  "range looks identical to yours, and connecting takes its single BLE slot."

/-- What is said of a device the registry does not list. -/
def notListed (target address : String) (devices : Dict String KnownDevice) : String :=
  s!"{address} is not in {target}, which lists: " ++
  ", ".intercalate (devices.values.map fun d => d.label ++ " (" ++ d.address ++ ")") ++ ".\n" ++
  "If this device really is yours, add it. If you are not certain it is yours, it is " ++
  "not — connecting would take a stranger's BedJet away from them."

/-- `require_known`; `target` is the path of the file. -/
def requireKnown (file : RegistryFile) (target address : String) :
    Except RegistryError KnownDevice := do
  let devices ← load file
  match devices.get (lower address) with
  | some known => .ok known
  | none =>
      if devices.isEmpty then .error (.unknownDevice (noRegistry target address))
      else .error (.unknownDevice (notListed target address devices))

/-! ### What the registry knows -/

/-- The entries of the file that give this address, in any case. -/
def Lists (entries : List (String × RegistryEntry)) (address : String) : Prop :=
  ∃ label entry listed, (label, entry) ∈ entries ∧ entry.address = some listed ∧
    lower listed = lower address

theorem loadEntries_get {entries : List (String × RegistryEntry)}
    {devices devices' : Dict String KnownDevice} (h : loadEntries devices entries = .ok devices')
    (address : String) :
    (devices'.get (lower address)).isSome ↔
      (devices.get (lower address)).isSome ∨ Lists entries address := by
  induction entries generalizing devices with
  | nil =>
      obtain rfl : devices = devices' := by simpa [loadEntries] using h
      simp [Lists]
  | cons item entries ih =>
      obtain ⟨label, entry⟩ := item
      cases haddress : entry.address with
      | none => simp [loadEntries, haddress] at h
      | some listed =>
          rw [ih (by simpa [loadEntries, haddress] using h), Dict.get_set]
          have hcons : Lists ((label, entry) :: entries) address ↔
              lower listed = lower address ∨ Lists entries address := by
            constructor
            · rintro ⟨label', entry', listed', hmem, hentry, heq⟩
              rcases List.mem_cons.mp hmem with hhead | htail
              · obtain ⟨rfl, rfl⟩ : label' = label ∧ entry' = entry := by simpa using hhead
                obtain rfl : listed = listed' := by simpa [haddress] using hentry
                exact .inl heq
              · exact .inr ⟨label', entry', listed', htail, hentry, heq⟩
            · rintro (heq | ⟨label', entry', listed', hmem, hentry, heq⟩)
              · exact ⟨label, entry, listed, List.mem_cons_self, haddress, heq⟩
              · exact ⟨label', entry', listed', List.mem_cons_of_mem _ hmem, hentry, heq⟩
          rw [hcons]
          by_cases heq : lower address = lower listed
          · simp [heq]
          · simp [heq, Ne.symm heq]

/-- The file can be read, and lists the address, in any case. -/
def Registered (file : RegistryFile) (address : String) : Prop :=
  ∃ entries, file = .devices entries ∧ (∃ devices, load file = .ok devices) ∧
    Lists entries address

/-- The devices that are known are those that are registered. -/
theorem requireKnown_ok_iff (file : RegistryFile) (target address : String) :
    (∃ known, requireKnown file target address = .ok known) ↔ Registered file address := by
  unfold Registered
  cases file with
  | missing => simp [requireKnown, load, Dict.get, bind, Except.bind]
  | invalid message => simp [requireKnown, load, bind, Except.bind]
  | devices entries =>
      cases hload : loadEntries [] entries with
      | error e => simp [requireKnown, load, hload, bind, Except.bind]
      | ok devices =>
          have hget := loadEntries_get hload address
          have hempty : (Dict.get ([] : Dict String KnownDevice) (lower address)).isSome = false :=
            rfl
          rw [hempty] at hget
          cases hknown : Dict.get devices (lower address) with
          | some known =>
              have hlists : Lists entries address := by simpa [hknown] using hget
              simp [requireKnown, load, hload, hknown, bind, Except.bind, hlists]
          | none =>
              have hlists : ¬Lists entries address := by simpa [hknown] using hget
              by_cases hnone : devices.isEmpty <;>
                simp [requireKnown, load, hload, hknown, bind, Except.bind, hlists, hnone]

end Bedjet.Device.Registry
