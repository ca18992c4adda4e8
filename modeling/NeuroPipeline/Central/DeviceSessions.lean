-- SUMMARY: The session manager: sessions of distinct devices, never more than it allows.
import Mathlib.Algebra.Order.Ring.Rat
import Mathlib.Data.Finset.Card
import Mathlib.Data.List.Nodup

/-!
# Device sessions

Model of `DeviceSessionManager` of device_session.py. Times are readings of the
wall clock, in seconds and exact; nothing is assumed of their order.
-/

inductive SessionStatus where
  | connected
  | stale
  | disconnected
  deriving DecidableEq

structure DeviceSession where
  deviceId : String
  deviceName : String := ""
  firmwareVersion : String := ""
  capabilities : List String := []
  connectedAt : ℚ
  lastHeartbeat : ℚ
  framesReceived : Nat := 0
  status : SessionStatus := .connected
  abTestGroup : String := ""
  modelVersion : String := ""
  deriving DecidableEq

/-- The arguments of `register`. -/
structure DeviceRegistration where
  deviceId : String
  deviceName : String := ""
  firmwareVersion : String := ""
  capabilities : List String := []

namespace DeviceSession

def new (r : DeviceRegistration) (now : ℚ) : DeviceSession where
  deviceId := r.deviceId
  deviceName := r.deviceName
  firmwareVersion := r.firmwareVersion
  capabilities := r.capabilities
  connectedAt := now
  lastHeartbeat := now

def reregister (s : DeviceSession) (r : DeviceRegistration) (now : ℚ) : DeviceSession :=
  { s with
    lastHeartbeat := now
    status := .connected
    deviceName := if r.deviceName = "" then s.deviceName else r.deviceName
    firmwareVersion := if r.firmwareVersion = "" then s.firmwareVersion else r.firmwareVersion
    capabilities := if r.capabilities = [] then s.capabilities else r.capabilities }

theorem deviceId_reregister (r : DeviceRegistration) (now : ℚ) (s : DeviceSession) :
    (s.reregister r now).deviceId = s.deviceId := rfl

end DeviceSession

/-- The sessions in the order of their registration. -/
structure DeviceSessionManager where
  heartbeatInterval : ℚ := 10
  expiryTimeout : ℚ := 30
  maxDevices : Nat := 16
  sessions : List DeviceSession
  distinct : (sessions.map DeviceSession.deviceId).Nodup
  bounded : sessions.length ≤ maxDevices

namespace DeviceSessionManager

def new (heartbeatInterval expiryTimeout : ℚ) (maxDevices : Nat) : DeviceSessionManager where
  heartbeatInterval := heartbeatInterval
  expiryTimeout := expiryTimeout
  maxDevices := maxDevices
  sessions := []
  distinct := .nil
  bounded := Nat.zero_le _

variable {m : DeviceSessionManager} {d e : String} {now : ℚ}

/-- The keys of `_sessions`. -/
def ids (m : DeviceSessionManager) : List String := m.sessions.map DeviceSession.deviceId

def getSession (m : DeviceSessionManager) (deviceId : String) : Option DeviceSession :=
  m.sessions.find? fun s => s.deviceId = deviceId

theorem mem_ids_iff : d ∈ m.ids ↔ ∃ s, m.getSession d = some s := by
  rw [ids, List.mem_map, ← Option.isSome_iff_exists, getSession, List.find?_isSome]
  simp only [decide_eq_true_eq]

theorem deviceId_of_getSession {s : DeviceSession} (h : m.getSession d = some s) :
    s.deviceId = d := by
  simpa using List.find?_some h

theorem session_unique {s s' : DeviceSession} (h : s ∈ m.sessions) (h' : s' ∈ m.sessions)
    (hid : s.deviceId = s'.deviceId) : s = s' :=
  List.inj_on_of_nodup_map m.distinct h h' hid

/-! ## Operations -/

/-- Change the session of a device, if it has one. -/
def modify (m : DeviceSessionManager) (deviceId : String) (f : DeviceSession → DeviceSession)
    (hf : ∀ s, (f s).deviceId = s.deviceId) : DeviceSessionManager :=
  have hids : (m.sessions.map fun s => if s.deviceId = deviceId then f s else s).map
      DeviceSession.deviceId = m.sessions.map DeviceSession.deviceId := by
    rw [List.map_map]
    refine List.map_congr_left fun s _ => ?_
    simp only [Function.comp]
    split
    · exact hf s
    · rfl
  { m with
    sessions := m.sessions.map fun s => if s.deviceId = deviceId then f s else s
    distinct := hids ▸ m.distinct
    bounded := (List.length_map _).trans_le m.bounded }

/-- Add a session when there is room. -/
def insert (m : DeviceSessionManager) (s : DeviceSession) (hnew : s.deviceId ∉ m.ids)
    (hroom : m.sessions.length < m.maxDevices) : DeviceSessionManager :=
  { m with
    sessions := m.sessions ++ [s]
    distinct := by
      rw [List.map_append, List.map_singleton]
      exact List.nodup_append.mpr ⟨m.distinct, by simp, fun i hi j hj hij =>
        hnew (List.mem_singleton.mp hj ▸ hij ▸ hi)⟩
    bounded := by
      rw [List.length_append, List.length_singleton]
      exact hroom }

/-- `register`, and whether the device is accepted. -/
def register (m : DeviceSessionManager) (r : DeviceRegistration) (now : ℚ) :
    DeviceSessionManager × Bool :=
  if hknown : r.deviceId ∈ m.ids then
    (m.modify r.deviceId (fun s => s.reregister r now) (DeviceSession.deviceId_reregister r now),
      true)
  else if hroom : m.sessions.length < m.maxDevices then
    (m.insert (.new r now) hknown hroom, true)
  else (m, false)

def heartbeat (m : DeviceSessionManager) (deviceId : String) (now : ℚ) : DeviceSessionManager :=
  m.modify deviceId (fun s => { s with lastHeartbeat := now, status := .connected }) fun _ => rfl

def incrementFrames (m : DeviceSessionManager) (deviceId : String) (count : Nat) :
    DeviceSessionManager :=
  m.modify deviceId (fun s => { s with framesReceived := s.framesReceived + count }) fun _ => rfl

/-- The group of an A/B test, written into the session. -/
def assign (m : DeviceSessionManager) (deviceId group version : String) : DeviceSessionManager :=
  m.modify deviceId (fun s => { s with abTestGroup := group, modelVersion := version })
    fun _ => rfl

/-- The sessions that satisfy `keep`. -/
def restrict (m : DeviceSessionManager) (keep : DeviceSession → Bool) : DeviceSessionManager :=
  { m with
    sessions := m.sessions.filter keep
    distinct := m.distinct.sublist (List.filter_sublist.map _)
    bounded := (List.length_filter_le _ _).trans m.bounded }

def unregister (m : DeviceSessionManager) (deviceId : String) : DeviceSessionManager :=
  m.restrict fun s => s.deviceId ≠ deviceId

def expired (m : DeviceSessionManager) (now : ℚ) (s : DeviceSession) : Bool :=
  m.expiryTimeout < now - s.lastHeartbeat

/-- A session that has not expired, and may be stale. -/
def aged (m : DeviceSessionManager) (now : ℚ) (s : DeviceSession) : DeviceSession :=
  { s with
    status := if m.heartbeatInterval * 2 < now - s.lastHeartbeat then .stale else s.status }

/-- `cleanup_expired`, with the ids of the expired devices. -/
def cleanupExpired (m : DeviceSessionManager) (now : ℚ) : DeviceSessionManager × List String :=
  let kept := m.restrict fun s => !m.expired now s
  have hids : (kept.sessions.map (m.aged now)).map DeviceSession.deviceId =
      kept.sessions.map DeviceSession.deviceId := by
    rw [List.map_map]
    rfl
  ({ kept with
     sessions := kept.sessions.map (m.aged now)
     distinct := hids ▸ kept.distinct
     bounded := (List.length_map _).trans_le kept.bounded },
    (m.sessions.filter (m.expired now)).map DeviceSession.deviceId)

/-! ## What the operations do to a session -/

section

variable {f : DeviceSession → DeviceSession} {hf : ∀ s, (f s).deviceId = s.deviceId}

theorem getSession_modify : (m.modify d f hf).getSession e =
    (m.getSession e).map fun s => if s.deviceId = d then f s else s := by
  rw [getSession, modify, List.find?_map, getSession]
  congr 2
  funext s
  simp only [Function.comp]
  split
  · rw [hf s]
  · rfl

theorem ids_modify (d : String) (f : DeviceSession → DeviceSession)
    (hf : ∀ s, (f s).deviceId = s.deviceId) : (m.modify d f hf).ids = m.ids := by
  rw [ids, modify, List.map_map]
  refine List.map_congr_left fun s _ => ?_
  simp only [Function.comp]
  split
  · exact hf s
  · rfl

end

@[simp] theorem ids_heartbeat : (m.heartbeat d now).ids = m.ids := ids_modify _ _ _

@[simp] theorem ids_incrementFrames {count : Nat} : (m.incrementFrames d count).ids = m.ids :=
  ids_modify _ _ _

@[simp] theorem ids_assign {group version : String} : (m.assign d group version).ids = m.ids :=
  ids_modify _ _ _

theorem mem_ids_unregister : e ∈ (m.unregister d).ids ↔ e ∈ m.ids ∧ e ≠ d := by
  simp only [ids, unregister, restrict, List.mem_map, List.mem_filter, decide_eq_true_eq]
  constructor
  · rintro ⟨s, ⟨hmem, hne⟩, rfl⟩
    exact ⟨⟨s, hmem, rfl⟩, hne⟩
  · rintro ⟨⟨s, hmem, rfl⟩, hne⟩
    exact ⟨s, ⟨hmem, hne⟩, rfl⟩

theorem mem_ids_cleanupExpired : e ∈ (m.cleanupExpired now).1.ids ↔
    ∃ s ∈ m.sessions, s.deviceId = e ∧ m.expired now s = false := by
  simp only [ids, cleanupExpired, restrict, List.map_map, List.mem_map, List.mem_filter,
    Bool.not_eq_true']
  constructor
  · rintro ⟨s, ⟨hmem, hkept⟩, rfl⟩
    exact ⟨s, hmem, rfl, hkept⟩
  · rintro ⟨s, hmem, rfl, hkept⟩
    exact ⟨s, ⟨hmem, hkept⟩, rfl⟩

/-- A device is accepted exactly if it has a session or there is room for one. -/
def Accepts (m : DeviceSessionManager) (deviceId : String) : Prop :=
  deviceId ∈ m.ids ∨ m.sessions.length < m.maxDevices

instance (m : DeviceSessionManager) (deviceId : String) : Decidable (m.Accepts deviceId) :=
  inferInstanceAs (Decidable (_ ∨ _))

variable {r : DeviceRegistration}

theorem register_cases (m : DeviceSessionManager) (r : DeviceRegistration) (now : ℚ) :
    (r.deviceId ∈ m.ids ∧ (m.register r now).2 = true ∧ (m.register r now).1.ids = m.ids ∧
      (m.register r now).1.maxDevices = m.maxDevices) ∨
    (r.deviceId ∉ m.ids ∧ m.sessions.length < m.maxDevices ∧ (m.register r now).2 = true ∧
      (m.register r now).1.ids = m.ids ++ [r.deviceId] ∧
      (m.register r now).1.maxDevices = m.maxDevices) ∨
    (¬ m.Accepts r.deviceId ∧ m.register r now = (m, false)) := by
  by_cases hknown : r.deviceId ∈ m.ids
  · rw [register, dif_pos hknown]
    exact .inl ⟨hknown, rfl, ids_modify _ _ (DeviceSession.deviceId_reregister r now), rfl⟩
  · by_cases hroom : m.sessions.length < m.maxDevices
    · rw [register, dif_neg hknown, dif_pos hroom]
      exact .inr (.inl ⟨hknown, hroom, rfl, by simp [ids, insert, DeviceSession.new], rfl⟩)
    · rw [register, dif_neg hknown, dif_neg hroom]
      exact .inr (.inr ⟨fun h => h.elim hknown hroom, rfl⟩)

theorem register_eq_true_iff (now : ℚ) : (m.register r now).2 = true ↔ m.Accepts r.deviceId := by
  rcases register_cases m r now with ⟨hknown, haccepted, -⟩ | ⟨-, hroom, haccepted, -⟩ |
    ⟨hfull, heq⟩
  · exact iff_of_true haccepted (.inl hknown)
  · exact iff_of_true haccepted (.inr hroom)
  · rw [heq]
    exact iff_of_false Bool.false_ne_true hfull

theorem mem_ids_register : e ∈ (m.register r now).1.ids ↔
    e ∈ m.ids ∨ (e = r.deviceId ∧ m.Accepts r.deviceId) := by
  rcases register_cases m r now with ⟨hknown, -, hids, -⟩ | ⟨-, hroom, -, hids, -⟩ | ⟨hfull, heq⟩
  · rw [hids]
    exact ⟨.inl, fun h => h.elim id fun ⟨he, _⟩ => he ▸ hknown⟩
  · have haccepts : m.Accepts r.deviceId := .inr hroom
    rw [hids, List.mem_append, List.mem_singleton, and_iff_left haccepts]
  · rw [heq]
    exact ⟨.inl, fun h => h.elim id fun ⟨_, haccepts⟩ => absurd haccepts hfull⟩

theorem maxDevices_register : (m.register r now).1.maxDevices = m.maxDevices := by
  rcases register_cases m r now with ⟨-, -, -, hmax⟩ | ⟨-, -, -, -, hmax⟩ | ⟨-, heq⟩
  · exact hmax
  · exact hmax
  · rw [heq]

/-- The devices of a set that is within the limit are always accepted. -/
theorem accepts_of_mem {devices : Finset String} (hsub : ∀ e ∈ m.ids, e ∈ devices)
    (hd : d ∈ devices) (hcard : devices.card ≤ m.maxDevices) : m.Accepts d := by
  by_cases hknown : d ∈ m.ids
  · exact .inl hknown
  · right
    have hnodup : (d :: m.ids).Nodup := List.nodup_cons.mpr ⟨hknown, m.distinct⟩
    have hall : (d :: m.ids).toFinset ⊆ devices := by
      intro e he
      rcases List.mem_cons.mp (List.mem_toFinset.mp he) with rfl | hmem
      · exact hd
      · exact hsub e hmem
    have hle := Finset.card_le_card hall
    rw [List.toFinset_card_of_nodup hnodup, List.length_cons, ids, List.length_map] at hle
    omega

end DeviceSessionManager
