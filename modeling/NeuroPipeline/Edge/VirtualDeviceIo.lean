-- SUMMARY: Simulated device files: what a device holds and what readers get of it, and which descriptors are open.
import NeuroPipeline.Lib.Dict
import NeuroPipeline.Lib.Tape

/-!
# Simulated device files

Model of virtual_device_io.cpp. Each call holds the mutex from its begin to its end, so that it
is one step. All who have opened a device read on from the same place.
-/

/-- `A` is what `arg` points to. -/
structure Device (A : Type) where
  path : String
  content : List UInt8
  readOffset : Nat := 0
  ioctlHandlers : Dict Nat (Nat → A → Int) := ∅
  readOffset_le : readOffset ≤ content.length := by exact Nat.zero_le _

structure VirtualDeviceIo (A : Type) where
  nextFd : Int := 10
  devices : Dict String (Device A) := ∅
  openFds : Dict Int String := ∅

/-- The calls; a buffer that is null is `none`. -/
inductive DeviceAct (A : Type) where
  | registerDevice (path : String) (initialContent : List UInt8)
  | registerIoctl (path : String) (request : Nat) (handler : Nat → A → Int)
  | openPath (path : String)
  | close (fd : Int)
  | read (fd : Int) (buf : Bool) (count : Nat)
  | write (fd : Int) (data : Option (List UInt8))
  | ioctl (fd : Int) (request : Nat) (arg : A)

namespace Device

variable {A : Type}

def tape (dev : Device A) : Tape UInt8 := ⟨dev.content, dev.readOffset, dev.readOffset_le⟩

/-- The bytes that are copied to the reader. -/
def readBytes (dev : Device A) (count : Nat) : List UInt8 :=
  if dev.content.length ≤ dev.readOffset then []
  else
    let available := dev.content.length - dev.readOffset
    let toRead := min count available
    (dev.content.drop dev.readOffset).take toRead

theorem readBytes_eq (dev : Device A) (count : Nat) : dev.readBytes count = dev.tape.next count := by
  have hahead : dev.tape.next count = (dev.content.drop dev.readOffset).take count := rfl
  rw [readBytes, hahead]
  split
  · next h => rw [List.drop_of_length_le h, List.take_nil]
  · dsimp only
    rw [← List.length_drop, ← List.take_take, List.take_length]

def afterRead (dev : Device A) (count : Nat) : Device A :=
  { dev with
    readOffset := dev.readOffset + (dev.readBytes count).length
    readOffset_le := by
      rw [readBytes_eq]
      exact dev.tape.offset_add_length_next count }

def afterWrite (dev : Device A) (data : List UInt8) : Device A :=
  { dev with
    content := dev.content ++ data
    readOffset_le := (dev.tape.append data).offset_le }

end Device

namespace VirtualDeviceIo

variable {A : Type} (s : VirtualDeviceIo A)

/-- The device that is open under a descriptor, with its path. -/
def findDevice (fd : Int) : Option (String × Device A) :=
  (s.openFds.lookup fd).bind fun path => (s.devices.lookup path).map fun dev => (path, dev)

def setDevice (path : String) (dev : Device A) : VirtualDeviceIo A :=
  { s with devices := s.devices.set path dev }

def registerDevice (path : String) (initialContent : List UInt8) : Bool × VirtualDeviceIo A :=
  if path ∈ s.devices then (false, s)
  else (true, s.setDevice path { path := path, content := initialContent })

def registerIoctl (path : String) (request : Nat) (handler : Nat → A → Int) : VirtualDeviceIo A :=
  match s.devices.lookup path with
  | none => s
  | some dev =>
    s.setDevice path { dev with ioctlHandlers := dev.ioctlHandlers.set request handler }

/-- Undefined when the descriptors have run out. -/
def openPath (path : String) : Option (Int × VirtualDeviceIo A) :=
  match s.devices.lookup path with
  | none => some (-1, s)
  | some dev =>
    if s.nextFd < 2147483647 then
      some (s.nextFd,
        { s with
          nextFd := s.nextFd + 1
          openFds := s.openFds.set s.nextFd path
          devices := s.devices.set path { dev with readOffset := 0, readOffset_le := Nat.zero_le _ } })
    else none

def close (fd : Int) : Int × VirtualDeviceIo A :=
  if fd ∈ s.openFds then (0, { s with openFds := s.openFds.erase fd }) else (-1, s)

/-- `none` where the call returns -1. -/
def read (fd : Int) (buf : Bool) (count : Nat) : Option (List UInt8) × VirtualDeviceIo A :=
  if buf then
    match s.findDevice fd with
    | none => (none, s)
    | some (path, dev) =>
      (some (dev.readBytes count), s.setDevice path (dev.afterRead count))
  else (none, s)

def write (fd : Int) (data : Option (List UInt8)) : Int × VirtualDeviceIo A :=
  match data with
  | none => (-1, s)
  | some data =>
    match s.findDevice fd with
    | none => (-1, s)
    | some (path, dev) => (data.length, s.setDevice path (dev.afterWrite data))

/-- A handler runs under the mutex and cannot call back. -/
def ioctl (fd : Int) (request : Nat) (arg : A) : Int :=
  match s.findDevice fd with
  | none => -1
  | some (_, dev) =>
    match dev.ioctlHandlers.lookup request with
    | none => -1
    | some handler => handler request arg

def deviceExists (path : String) : Bool := path ∈ s.devices

def isOpen (fd : Int) : Bool := fd ∈ s.openFds

def getDeviceContent (path : String) : List UInt8 :=
  match s.devices.lookup path with
  | none => []
  | some dev => dev.content

def step : DeviceAct A → Option (VirtualDeviceIo A)
  | .registerDevice path initialContent => some (s.registerDevice path initialContent).2
  | .registerIoctl path request handler => some (s.registerIoctl path request handler)
  | .openPath path => (s.openPath path).map Prod.snd
  | .close fd => some (s.close fd).2
  | .read fd buf count => some (s.read fd buf count).2
  | .write fd data => some (s.write fd data).2
  | .ioctl _ _ _ => some s

end VirtualDeviceIo

def virtualDeviceSystem (A : Type) : TransitionSystem (VirtualDeviceIo A) (DeviceAct A) where
  init s := s = {}
  step := VirtualDeviceIo.step

namespace VirtualDeviceIo

variable {A : Type} {s s' s₀ : VirtualDeviceIo A} {t : List (VirtualDeviceIo A × DeviceAct A)}
  {path : String}

/-! ## Devices as tapes -/

/-- The tape of a device; one that is not registered has an empty one. -/
def tape (path : String) (s : VirtualDeviceIo A) : Tape UInt8 :=
  (s.devices.lookup path).elim {} Device.tape

theorem tape_setDevice (path : String) (s : VirtualDeviceIo A) (p : String) (dev : Device A) :
    (s.setDevice p dev).tape path = if path = p then dev.tape else s.tape path := by
  rw [tape, setDevice, Dict.lookup_set]
  split <;> rfl

theorem tape_of_lookup {dev : Device A} (h : s.devices.lookup path = some dev) :
    s.tape path = dev.tape := by
  rw [tape, h]
  rfl

theorem getDeviceContent_eq (s : VirtualDeviceIo A) (path : String) :
    s.getDeviceContent path = (s.tape path).content := by
  rw [getDeviceContent, tape]
  cases s.devices.lookup path <;> rfl

theorem findDevice_eq_some {fd : Int} {p : String} {dev : Device A}
    (h : s.findDevice fd = some (p, dev)) :
    s.openFds.lookup fd = some p ∧ s.devices.lookup p = some dev := by
  obtain ⟨p', hfd, hmap⟩ := Option.bind_eq_some_iff.mp h
  obtain ⟨dev', hdev, heq⟩ := Option.map_eq_some_iff.mp hmap
  obtain ⟨rfl, rfl⟩ := Prod.mk.inj heq
  exact ⟨hfd, hdev⟩

/-- What a call does to the tape of a device. -/
def seenOn (path : String) (s : VirtualDeviceIo A) : DeviceAct A → Option (TapeAct UInt8)
  | .registerDevice p initialContent =>
    if p = path ∧ p ∉ s.devices then some (.append initialContent) else none
  | .openPath p => if p = path ∧ p ∈ s.devices then some .rewind else none
  | .read fd buf count =>
    if buf = true ∧ (s.findDevice fd).map Prod.fst = some path then some (.read count) else none
  | .write fd data =>
    if (s.findDevice fd).map Prod.fst = some path then data.map .append else none
  | .registerIoctl _ _ _ | .close _ | .ioctl _ _ _ => none

theorem projects_tape (path : String) :
    (virtualDeviceSystem A).Projects (Tape.system UInt8) (tape path) (seenOn path) := by
  intro s act s' hs
  cases act with
  | registerDevice p initialContent =>
      obtain rfl := Option.some_inj.mp hs
      rw [seenOn, registerDevice]
      by_cases hmem : p ∈ s.devices
      · simp [hmem]
      · rw [if_neg hmem, tape_setDevice]
        by_cases hp : p = path
        · subst hp
          have hnone : s.devices.lookup p = none := AList.lookup_eq_none.mpr hmem
          have hempty : s.tape p = {} := by rw [tape, hnone]; rfl
          rw [if_pos ⟨rfl, hmem⟩, if_pos rfl, hempty]
          rfl
        · rw [if_neg fun h => hp h.1, if_neg (Ne.symm hp)]
  | registerIoctl p request handler =>
      obtain rfl := Option.some_inj.mp hs
      rw [seenOn, registerIoctl]
      cases hdev : s.devices.lookup p with
      | none => rfl
      | some dev =>
          dsimp only
          rw [tape_setDevice]
          split
          · next hp =>
              subst hp
              exact (tape_of_lookup hdev).symm
          · rfl
  | openPath p =>
      obtain ⟨r, hopen, rfl⟩ := Option.map_eq_some_iff.mp hs
      rw [openPath] at hopen
      rw [seenOn]
      cases hdev : s.devices.lookup p with
      | none =>
          rw [hdev] at hopen
          obtain rfl := Option.some_inj.mp hopen
          rw [if_neg fun h => AList.lookup_eq_none.mp hdev h.2]
      | some dev =>
          rw [hdev] at hopen
          dsimp only at hopen
          split at hopen
          · obtain rfl := Option.some_inj.mp hopen
            have htape := tape_setDevice path s p
              { dev with readOffset := 0, readOffset_le := Nat.zero_le _ }
            by_cases hp : p = path
            · subst hp
              rw [if_pos ⟨rfl, Dict.mem_of_lookup hdev⟩]
              rw [if_pos rfl] at htape
              exact congrArg some ((congrArg Tape.rewind (tape_of_lookup hdev)).trans htape.symm)
            · rw [if_neg fun h => hp h.1]
              rw [if_neg (Ne.symm hp)] at htape
              exact htape
          · cases hopen
  | close fd =>
      obtain rfl := Option.some_inj.mp hs
      rw [seenOn, close]
      by_cases hopen : fd ∈ s.openFds
      · rw [if_pos hopen]
        rfl
      · rw [if_neg hopen]
  | read fd buf count =>
      obtain rfl := Option.some_inj.mp hs
      rw [seenOn, read]
      cases buf with
      | false => rfl
      | true =>
          cases hfind : s.findDevice fd with
          | none => rfl
          | some r =>
              obtain ⟨p, dev⟩ := r
              obtain ⟨-, hdev⟩ := findDevice_eq_some hfind
              simp only [if_true, Option.map_some, Option.some_inj, true_and, tape_setDevice]
              by_cases hp : p = path
              · subst hp
                rw [if_pos rfl, if_pos rfl, tape_of_lookup hdev]
                simp only [Tape.system, Tape.step, Tape.read, ← Device.readBytes_eq]
                rfl
              · rw [if_neg hp, if_neg (Ne.symm hp)]
  | write fd data =>
      obtain rfl := Option.some_inj.mp hs
      rw [seenOn]
      cases data with
      | none => simp [write]
      | some data =>
          rw [write]
          cases hfind : s.findDevice fd with
          | none => rfl
          | some r =>
              obtain ⟨p, dev⟩ := r
              obtain ⟨-, hdev⟩ := findDevice_eq_some hfind
              simp only [Option.map_some, Option.some_inj, tape_setDevice]
              by_cases hp : p = path
              · subst hp
                rw [if_pos rfl, if_pos rfl, tape_of_lookup hdev]
                rfl
              · rw [if_neg hp, if_neg (Ne.symm hp)]
  | ioctl fd request arg =>
      obtain rfl := Option.some_inj.mp hs
      rfl

/-- Everything that the device was given: its initial content and what was written. -/
def written (path : String) (t : List (VirtualDeviceIo A × DeviceAct A)) : List UInt8 :=
  Tape.appended (TransitionSystem.projectTrace (tape path) (seenOn path) t)

/-- Everything that was read from the device, under any descriptor, since it was last opened. -/
def delivered (path : String) (t : List (VirtualDeviceIo A × DeviceAct A)) : List UInt8 :=
  Tape.delivered (TransitionSystem.projectTrace (tape path) (seenOn path) t)

/-! ## Descriptors -/

def opening (s : VirtualDeviceIo A) : DeviceAct A → Option String
  | .openPath path => if path ∈ s.devices then some path else none
  | _ => none

def closing (s : VirtualDeviceIo A) : DeviceAct A → Option Int
  | .close fd => if fd ∈ s.openFds then some fd else none
  | _ => none

/-- The paths that were opened. -/
def opened (t : List (VirtualDeviceIo A × DeviceAct A)) : List String :=
  t.filterMap fun p => p.1.opening p.2

/-- The descriptors that were closed. -/
def closed (t : List (VirtualDeviceIo A × DeviceAct A)) : List Int :=
  t.filterMap fun p => p.1.closing p.2

/-- The descriptors are numbered in the order in which they are handed out. -/
structure FdAccount (t : List (VirtualDeviceIo A × DeviceAct A)) (s : VirtualDeviceIo A) :
    Prop where
  nextFd : s.nextFd = 10 + (opened t).length
  openFds : ∀ fd path, s.openFds.lookup fd = some path ↔
    fd ∉ closed t ∧ ∃ i : Nat, (opened t)[i]? = some path ∧ fd = 10 + i
  closed_lt : ∀ fd ∈ closed t, fd < s.nextFd
  closed_nodup : (closed t).Nodup
  registered : ∀ path ∈ opened t, path ∈ s.devices

theorem opened_snoc (act : DeviceAct A) :
    opened (t ++ [(s, act)]) = opened t ++ (s.opening act).toList := by
  rw [opened, List.filterMap_append, opened]
  cases h : s.opening act <;> simp [h]

theorem closed_snoc (act : DeviceAct A) :
    closed (t ++ [(s, act)]) = closed t ++ (s.closing act).toList := by
  rw [closed, List.filterMap_append, closed]
  cases h : s.closing act <;> simp [h]

/-- What a call does to the descriptors. -/
inductive Moves (s : VirtualDeviceIo A) (act : DeviceAct A) (s' : VirtualDeviceIo A) : Prop where
  | kept (hopening : s.opening act = none) (hclosing : s.closing act = none)
      (nextFd : s'.nextFd = s.nextFd) (openFds : s'.openFds = s.openFds)
  | opened (path : String) (hopening : s.opening act = some path) (hclosing : s.closing act = none)
      (nextFd : s'.nextFd = s.nextFd + 1) (openFds : s'.openFds = s.openFds.set s.nextFd path)
  | closed (fd : Int) (hopening : s.opening act = none) (hclosing : s.closing act = some fd)
      (nextFd : s'.nextFd = s.nextFd) (openFds : s'.openFds = s.openFds.erase fd)

theorem mem_setDevice {p : String} {dev : Device A} (h : path ∈ s.devices) :
    path ∈ (s.setDevice p dev).devices := Dict.mem_set.mpr (.inr h)

theorem openPath_eq_some {p : String} {r : Int × VirtualDeviceIo A} (h : s.openPath p = some r) :
    (p ∉ s.devices ∧ r = (-1, s)) ∨ ∃ dev, s.devices.lookup p = some dev ∧ r =
      (s.nextFd, { (s.setDevice p { dev with readOffset := 0, readOffset_le := Nat.zero_le _ }) with
        nextFd := s.nextFd + 1, openFds := s.openFds.set s.nextFd p }) := by
  rw [openPath] at h
  cases hdev : s.devices.lookup p with
  | none =>
      rw [hdev] at h
      exact .inl ⟨AList.lookup_eq_none.mp hdev, (Option.some_inj.mp h).symm⟩
  | some dev =>
      rw [hdev] at h
      dsimp only at h
      split at h
      · exact .inr ⟨dev, rfl, (Option.some_inj.mp h).symm⟩
      · cases h

/-- No device goes away, and what a call does to the descriptors. -/
theorem step_moves {act : DeviceAct A} (hs : (virtualDeviceSystem A).step s act = some s') :
    Moves s act s' ∧ ∀ path ∈ s.devices, path ∈ s'.devices := by
  cases act with
  | registerDevice p initialContent =>
      obtain rfl := Option.some_inj.mp hs
      rw [registerDevice]
      split
      · exact ⟨.kept rfl rfl rfl rfl, fun _ h => h⟩
      · exact ⟨.kept rfl rfl rfl rfl, fun _ => mem_setDevice⟩
  | registerIoctl p request handler =>
      obtain rfl := Option.some_inj.mp hs
      rw [registerIoctl]
      split
      · exact ⟨.kept rfl rfl rfl rfl, fun _ h => h⟩
      · exact ⟨.kept rfl rfl rfl rfl, fun _ => mem_setDevice⟩
  | openPath p =>
      obtain ⟨r, hopen, rfl⟩ := Option.map_eq_some_iff.mp hs
      rcases openPath_eq_some hopen with ⟨hmem, rfl⟩ | ⟨dev, hdev, rfl⟩
      · exact ⟨.kept (if_neg hmem) rfl rfl rfl, fun _ h => h⟩
      · exact ⟨.opened p (if_pos (Dict.mem_of_lookup hdev)) rfl rfl rfl, fun _ => mem_setDevice⟩
  | close fd =>
      obtain rfl := Option.some_inj.mp hs
      rw [close]
      by_cases hopen : fd ∈ s.openFds
      · rw [if_pos hopen]
        exact ⟨.closed fd rfl (if_pos hopen) rfl rfl, fun _ h => h⟩
      · rw [if_neg hopen]
        exact ⟨.kept rfl (if_neg hopen) rfl rfl, fun _ h => h⟩
  | read fd buf count =>
      obtain rfl := Option.some_inj.mp hs
      rw [read]
      split
      · split
        · exact ⟨.kept rfl rfl rfl rfl, fun _ h => h⟩
        · exact ⟨.kept rfl rfl rfl rfl, fun _ => mem_setDevice⟩
      · exact ⟨.kept rfl rfl rfl rfl, fun _ h => h⟩
  | write fd data =>
      obtain rfl := Option.some_inj.mp hs
      cases data with
      | none => exact ⟨.kept rfl rfl rfl rfl, fun _ h => h⟩
      | some data =>
          rw [write]
          split
          · exact ⟨.kept rfl rfl rfl rfl, fun _ h => h⟩
          · exact ⟨.kept rfl rfl rfl rfl, fun _ => mem_setDevice⟩
  | ioctl fd request arg =>
      obtain rfl := Option.some_inj.mp hs
      exact ⟨.kept rfl rfl rfl rfl, fun _ h => h⟩

theorem mem_of_opening {act : DeviceAct A} (h : s.opening act = some path) : path ∈ s.devices := by
  cases act with
  | openPath p =>
      rw [opening] at h
      split at h
      · next hmem => exact Option.some_inj.mp h ▸ hmem
      · cases h
  | _ => cases h

theorem mem_of_closing {act : DeviceAct A} {fd : Int} (h : s.closing act = some fd) :
    fd ∈ s.openFds := by
  cases act with
  | close fd' =>
      rw [closing] at h
      split at h
      · next hmem => exact Option.some_inj.mp h ▸ hmem
      · cases h
  | _ => cases h

/-- A descriptor that is open has been handed out. -/
theorem FdAccount.lt_nextFd (h : FdAccount t s) {fd : Int} {p : String}
    (hopen : s.openFds.lookup fd = some p) : fd < s.nextFd := by
  obtain ⟨-, i, hi, rfl⟩ := (h.openFds fd p).mp hopen
  obtain ⟨hlt, -⟩ := List.getElem?_eq_some_iff.mp hi
  rw [h.nextFd]
  omega

theorem step_fdAccount {act : DeviceAct A} (h : FdAccount t s)
    (hs : (virtualDeviceSystem A).step s act = some s') : FdAccount (t ++ [(s, act)]) s' := by
  obtain ⟨hmoves, hdevices⟩ := step_moves hs
  cases hmoves with
  | kept hopening hclosing hnext hfds =>
      have hopened : opened (t ++ [(s, act)]) = opened t := by
        rw [opened_snoc, hopening, Option.toList_none, List.append_nil]
      have hclosed : closed (t ++ [(s, act)]) = closed t := by
        rw [closed_snoc, hclosing, Option.toList_none, List.append_nil]
      constructor
      · rw [hopened, hnext, h.nextFd]
      · rw [hopened, hclosed, hfds]
        exact h.openFds
      · rw [hclosed, hnext]
        exact h.closed_lt
      · rw [hclosed]
        exact h.closed_nodup
      · rw [hopened]
        exact fun p hp => hdevices p (h.registered p hp)
  | opened p hopening hclosing hnext hfds =>
      have hopened : opened (t ++ [(s, act)]) = opened t ++ [p] := by
        rw [opened_snoc, hopening, Option.toList_some]
      have hclosed : closed (t ++ [(s, act)]) = closed t := by
        rw [closed_snoc, hclosing, Option.toList_none, List.append_nil]
      have hnew : s.nextFd ∉ closed t := fun hmem => absurd (h.closed_lt _ hmem) (Int.lt_irrefl _)
      constructor
      · rw [hopened, hnext, h.nextFd, List.length_append, List.length_singleton]
        omega
      · intro fd q
        rw [hopened, hclosed, hfds, Dict.lookup_set]
        by_cases hfd : fd = s.nextFd
        · subst hfd
          rw [if_pos rfl, Option.some_inj]
          constructor
          · rintro rfl
            exact ⟨hnew, (opened t).length, List.getElem?_concat_length, h.nextFd⟩
          · rintro ⟨-, i, hi, heq⟩
            have hlength := h.nextFd
            obtain rfl : i = (opened t).length := by omega
            rw [List.getElem?_concat_length] at hi
            exact Option.some_inj.mp hi
        · rw [if_neg hfd, h.openFds fd q]
          refine and_congr_right fun _ => exists_congr fun i => and_congr_left fun heq => ?_
          have hlength := h.nextFd
          have hne : i ≠ (opened t).length := by omega
          rcases Nat.lt_or_gt_of_ne hne with hlt | hgt
          · rw [List.getElem?_append_left hlt]
          · rw [List.getElem?_eq_none (Nat.le_of_lt hgt), List.getElem?_eq_none (by
              rw [List.length_append, List.length_singleton]
              exact hgt)]
      · rw [hclosed, hnext]
        exact fun fd hfd => Int.lt_add_one_of_le (Int.le_of_lt (h.closed_lt fd hfd))
      · rw [hclosed]
        exact h.closed_nodup
      · rw [hopened]
        intro q hq
        rcases List.mem_append.mp hq with hq | hq
        · exact hdevices q (h.registered q hq)
        · rw [List.mem_singleton.mp hq]
          exact hdevices p (mem_of_opening hopening)
  | closed fd hopening hclosing hnext hfds =>
      have hopened : opened (t ++ [(s, act)]) = opened t := by
        rw [opened_snoc, hopening, Option.toList_none, List.append_nil]
      have hclosed : closed (t ++ [(s, act)]) = closed t ++ [fd] := by
        rw [closed_snoc, hclosing, Option.toList_some]
      obtain ⟨p, hopen⟩ := Dict.exists_lookup (mem_of_closing hclosing)
      constructor
      · rw [hopened, hnext, h.nextFd]
      · intro fd' q
        rw [hopened, hclosed, hfds, List.mem_append, List.mem_singleton]
        by_cases hfd : fd' = fd
        · subst hfd
          simp [AList.lookup_erase]
        · rw [AList.lookup_erase_ne hfd, h.openFds fd' q]
          simp [hfd]
      · rw [hclosed, hnext]
        intro fd' hfd'
        rcases List.mem_append.mp hfd' with hfd' | hfd'
        · exact h.closed_lt fd' hfd'
        · rw [List.mem_singleton.mp hfd']
          exact h.lt_nextFd hopen
      · rw [hclosed]
        refine List.nodup_append.mpr ⟨h.closed_nodup, List.nodup_singleton fd, ?_⟩
        intro x hx y hy heq
        rw [heq, List.mem_singleton.mp hy] at hx
        exact ((h.openFds fd p).mp hopen).1 hx
      · rw [hopened]
        exact fun q hq => hdevices q (h.registered q hq)

theorem fdAccount_of_run (hrun : (virtualDeviceSystem A).Run {} t s) : FdAccount t s := by
  refine hrun.invariant_history (I := FdAccount) (fun _ _ _ _ h hs => step_fdAccount h hs) ?_
  refine ⟨rfl, fun fd p => ?_, fun _ h => absurd h List.not_mem_nil, List.nodup_nil,
    fun _ h => absurd h List.not_mem_nil⟩
  simp [opened]

/-- A device holds what it was registered with and what was written to it. Of this, those who
read it get every byte once, in its order, from the last opening on, and nothing only when
they have had everything. A descriptor is the number of an opening, and it is open until it is
closed, which happens at most once. -/
theorem devices_accounted (hrun : (virtualDeviceSystem A).Run {} t s) :
    (∀ path, s.getDeviceContent path = written path t ∧ delivered path t <+: written path t) ∧
      (∀ fd path, s.openFds.lookup fd = some path → ∀ count, ∃ bytes,
        (s.read fd true count).1 = some bytes ∧ bytes.length ≤ count ∧
          delivered path t ++ bytes <+: written path t ∧
          (0 < count → (bytes = [] ↔ delivered path t = written path t))) ∧
      (∀ fd path, s.openFds.lookup fd = some path ↔
        fd ∉ closed t ∧ ∃ i : Nat, (opened t)[i]? = some path ∧ fd = 10 + i) ∧
      (closed t).Nodup := by
  have hfds := fdAccount_of_run hrun
  have htape := fun path => hrun.project (projects_tape path)
  have hcontent := fun path => Tape.run_content rfl (htape path)
  refine ⟨fun path => ⟨?_, ?_⟩, ?_, hfds.openFds, hfds.closed_nodup⟩
  · rw [getDeviceContent_eq, (hcontent path).1, written]
  · rw [written, delivered, ← (hcontent path).1, (hcontent path).2]
    exact List.take_prefix _ _
  · intro fd path hopen count
    obtain ⟨-, i, hi, -⟩ := (hfds.openFds fd path).mp hopen
    obtain ⟨dev, hdev⟩ := Dict.exists_lookup (hfds.registered path (List.mem_of_getElem? hi))
    have hfind : s.findDevice fd = some (path, dev) := by rw [findDevice, hopen, Option.bind_some,
      hdev, Option.map_some]
    refine ⟨(s.tape path).next count, ?_, ?_, ?_, fun hcount => ?_⟩
    · rw [read, if_pos rfl, hfind, tape_of_lookup hdev, ← Device.readBytes_eq]
    · exact List.length_take_le _ _
    · rw [written, delivered, ← (hcontent path).1, (hcontent path).2, ← Tape.take_offset_read]
      exact List.take_prefix _ _
    · exact Tape.next_eq_nil_iff rfl (htape path) hcount

/-- Two who have opened the device get each byte once between them, until it is opened again. -/
theorem devices_accounted_shared :
    ∃ t s, (virtualDeviceSystem Unit).Run {} t s ∧
      t.map Prod.snd = [.registerDevice "/dev/video0" [1, 2], .openPath "/dev/video0",
        .openPath "/dev/video0", .read 10 true 1, .write 11 (some [3]), .read 11 true 8,
        .close 10, .openPath "/dev/video0", .read 12 true 1] ∧
      delivered "/dev/video0" t = [1] ∧ s.openFds.lookup 12 = some "/dev/video0" ∧
      (s.read 11 true 8).1 = some [2, 3] ∧
      s.getDeviceContent "/dev/video0" = written "/dev/video0" t := by
  have hview : ((virtualDeviceSystem Unit).execTrace {}
      [.registerDevice "/dev/video0" [1, 2], .openPath "/dev/video0",
        .openPath "/dev/video0", .read 10 true 1, .write 11 (some [3]), .read 11 true 8,
        .close 10, .openPath "/dev/video0", .read 12 true 1]).map
      (fun r => (delivered "/dev/video0" r.1, r.2.openFds.lookup 12, (r.2.read 11 true 8).1)) =
        some ([1], some "/dev/video0", some [2, 3]) := by decide +kernel
  obtain ⟨t, s, hrun, hlabels, hend⟩ := TransitionSystem.exists_run_of_execTrace hview
  obtain ⟨hdelivered, hopen, hread⟩ := Prod.mk.inj hend |>.imp_right Prod.mk.inj
  exact ⟨t, s, hrun, hlabels, hdelivered, hopen, hread,
    ((devices_accounted hrun).1 "/dev/video0").1⟩

end VirtualDeviceIo
