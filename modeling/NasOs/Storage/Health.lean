import NasOs.Library.Machine
import NasOs.Library.Table
import NasOs.Storage.Gather
import NasOs.Users.Requests

/-!
# The health of the disks over time

Every half an hour `SmartHealthPoller` asks the agent for the inventory.  It writes down for each disk
with a serial number how it was seen, and posts a notification when the health of the disk is not what it
was the last time and is one to warn about.  What the poller remembers of a disk is its row of the table
`disks_seen`, so the notifications of all polls, across restarts of the web process, are told by the
sequence of all disks that were seen: a disk is reported if and only if it is unhealthy and the last time it
was seen it was not unhealthy in the same way.
-/

/-- A row of the `disks_seen` table. -/
structure DiskSeen where
  serial : String
  path : String
  model : Option String
  size : Option ℤ
  lastHealth : Option String
  deriving DecidableEq

/-- The text of a health. -/
def StorageHealth.value : StorageHealth → String
  | .ok => "ok"
  | .warning => "warning"
  | .critical => "critical"
  | .unknown => "unknown"

/-- The tables of the database that the poller works on. -/
structure HealthTables where
  disksSeen : Table DiskSeen.serial
  notifications : List Notification

/-- The tables of a new database. -/
def HealthTables.empty : HealthTables :=
  ⟨Table.empty, []⟩

namespace SmartHealthPoller

variable {F : Type}

/-! ### The poller -/

/-- `_ALERT_LEVELS`. -/
def alertLevels : List (String × String) :=
  [("warning", "warning"), ("critical", "critical")]

/-- `_flatten`. -/
def flatten (nodes : List (SmartNode F)) : List (BlockDevice × Option (DiskSmart F)) :=
  (RoseTree.subtreesOf nodes).map RoseTree.value

/-- The health of a disk, which is unknown where `smartctl` told nothing. -/
def healthOf (disk : BlockDevice × Option (DiskSmart F)) : String :=
  ((disk.2.map DiskSmart.health).getD .unknown).value

/-- The notification that the health of a disk is now another. -/
def notification (disk : BlockDevice) (serial health level : String) : Notification where
  level := level
  title := "Disk health: " ++ health
  message := ((disk.model.getD "").orElse disk.path) ++ " (" ++ serial ++ ") SMART health is now "
    ++ health
  source := "storage"

/-- `_update`, for a disk with a serial number. -/
def update (serial : String) (disk : BlockDevice × Option (DiskSmart F)) (db : HealthTables) :
    HealthTables :=
  let health := healthOf disk
  let previousHealth := (db.disksSeen.find? serial).bind DiskSeen.lastHealth
  { disksSeen := db.disksSeen.put ⟨serial, disk.1.path, disk.1.model, some disk.1.size, some health⟩
    notifications := db.notifications ++
      if previousHealth = some health then []
      else ((alertLevels.lookup health).map (notification disk.1 serial health)).toList }

/-- The updates of one poll: a row that was written earlier in it is found. -/
def updateAll (db : HealthTables) (disks : List (BlockDevice × Option (DiskSmart F))) : HealthTables :=
  disks.foldl (fun db disk =>
    let serial := disk.1.serial.getD ""
    if serial = "" then db else update serial disk db) db

/-- `poll_once`: what the agent answers, and whether the transaction goes through. -/
def pollOnce (inventory : Except Exc (Gathered F)) (commits : Bool) (db : HealthTables) : HealthTables :=
  match inventory with
  | .error _ => db
  | .ok result => if commits then updateAll db (flatten result.disks) else db

/-- What changes the tables: a poll, or a notification of the requests about users. -/
inductive Event (F : Type) where
  | poll (inventory : Except Exc (Gathered F)) (commits : Bool)
  | passwordOutOfSync (user : User) (message : String)

/-- The tables over time. -/
def machine (F : Type) : Machine HealthTables (Event F) where
  step db
    | .poll inventory commits => some (pollOnce inventory commits db)
    | .passwordOutOfSync user message =>
        some { db with notifications := db.notifications ++ [UsersService.outOfSync user message] }

/-! ### What was seen -/

/-- A disk that was seen, with its serial number. -/
structure Sighting (F : Type) where
  serial : String
  disk : BlockDevice × Option (DiskSmart F)

/-- The row that tells of the last time a disk was seen. -/
def Sighting.row (s : Sighting F) : DiskSeen :=
  ⟨s.serial, s.disk.1.path, s.disk.1.model, some s.disk.1.size, some (healthOf s.disk)⟩

/-- A disk with a serial number is seen. -/
def sighting? (disk : BlockDevice × Option (DiskSmart F)) : Option (Sighting F) :=
  let serial := disk.1.serial.getD ""
  if serial = "" then none else some ⟨serial, disk⟩

/-- The disks that are seen: those of an inventory whose poll goes through. -/
def Event.sightings : Event F → List (Sighting F)
  | .poll (.ok result) true => (flatten result.disks).filterMap sighting?
  | _ => []

/-- The last time that the disk of a serial number was seen. -/
def lastSeen (earlier : List (Sighting F)) (serial : String) : Option (Sighting F) :=
  earlier.reverse.find? fun s => s.serial = serial

/-- The notification of a disk that is seen after others: there is one if its health is one to warn about,
and is not the health it had the last time that it was seen. -/
def report? (earlier : List (Sighting F)) (s : Sighting F) : Option Notification :=
  if (lastSeen earlier s.serial).map (fun last => healthOf last.disk) = some (healthOf s.disk) then none
  else (alertLevels.lookup (healthOf s.disk)).map (notification s.disk.1 s.serial (healthOf s.disk))

/-- The notifications of the disks that are seen after others. -/
def reports (earlier : List (Sighting F)) : List (Sighting F) → List Notification
  | [] => []
  | s :: later => (report? earlier s).toList ++ reports (earlier ++ [s]) later

/-- The notifications of the poller are those whose source is the storage. -/
def ofStorage (notifications : List Notification) : List Notification :=
  notifications.filter fun n => n.source = "storage"

/-- The table of the disks tells of each the last time that it was seen. -/
def Recalls (db : HealthTables) (earlier : List (Sighting F)) : Prop :=
  ∀ serial, db.disksSeen.find? serial = (lastSeen earlier serial).map Sighting.row

/-! ### What the poller does -/

/-- The disk that is seen last is the last of its serial number, and no other is told about. -/
theorem lastSeen_concat (earlier : List (Sighting F)) (s : Sighting F) (serial : String) :
  lastSeen (earlier ++ [s]) serial
    = if s.serial = serial then some s else lastSeen earlier serial
  := by
  rw [lastSeen, List.reverse_append, List.reverse_singleton, List.singleton_append, List.find?_cons]
  by_cases h : s.serial = serial
  · simp [h]
  · simp [h, lastSeen]

/-- What is reported of some disks and then of others. -/
theorem reports_append (earlier l l' : List (Sighting F)) :
  reports earlier (l ++ l') = reports earlier l ++ reports (earlier ++ l) l'
  := by
  induction l generalizing earlier with
  | nil => simp [reports]
  | cons s l ih =>
      rw [List.cons_append, reports, reports, ih, List.append_assoc, List.append_assoc,
        List.singleton_append]

/-- Every notification that is reported has the storage as its source. -/
theorem ofStorage_reports (earlier l : List (Sighting F)) :
  ofStorage (reports earlier l) = reports earlier l
  := by
  rw [ofStorage, List.filter_eq_self]
  induction l generalizing earlier with
  | nil => simp [reports]
  | cons s l ih =>
      rw [reports]
      intro n hn
      rcases List.mem_append.mp hn with hn | hn
      · rw [Option.mem_toList, report?] at hn
        split at hn
        · cases hn
        · obtain ⟨level, -, rfl⟩ := Option.map_eq_some_iff.mp hn
          rfl
      · exact ih (earlier ++ [s]) n hn

variable {db : HealthTables} {earlier : List (Sighting F)}

/-- An update writes down that a disk was seen. -/
theorem Recalls.update (h : Recalls db earlier) (s : Sighting F) :
  Recalls (update s.serial s.disk db) (earlier ++ [s])
  := by
  intro serial
  rw [SmartHealthPoller.update, lastSeen_concat, Table.find?_put, h serial]
  split
  · rfl
  · rfl

/-- An update posts the notification of the disk that is seen. -/
theorem Recalls.notifications_update (h : Recalls db earlier) (s : Sighting F) :
  (SmartHealthPoller.update s.serial s.disk db).notifications
    = db.notifications ++ (report? earlier s).toList
  := by
  have hprevious : (db.disksSeen.find? s.serial).bind DiskSeen.lastHealth
      = (lastSeen earlier s.serial).map fun last => healthOf last.disk := by
    rw [h s.serial, Option.bind_map]
    cases lastSeen earlier s.serial with
    | none => rfl
    | some last => rfl
  rw [SmartHealthPoller.update, report?]
  simp only [hprevious]
  split
  · rfl
  · rfl

/-- The updates of a poll are those of the disks that are seen in it. -/
theorem updateAll_eq (db : HealthTables) (disks : List (BlockDevice × Option (DiskSmart F))) :
  updateAll db disks
    = (disks.filterMap sighting?).foldl (fun db s => SmartHealthPoller.update s.serial s.disk db) db
  := by
  induction disks generalizing db with
  | nil => rfl
  | cons disk disks ih =>
      rw [updateAll, List.foldl_cons]
      by_cases hserial : disk.1.serial.getD "" = ""
      · rw [List.filterMap_cons_none (by rw [sighting?, if_pos hserial]), ← ih]
        simp only [if_pos hserial]
        rfl
      · rw [List.filterMap_cons_some (by rw [sighting?, if_neg hserial]), List.foldl_cons, ← ih]
        simp only [if_neg hserial]
        rfl

/-- The updates of the disks that are seen write them down and post their notifications. -/
theorem Recalls.foldl_update (h : Recalls db earlier) (l : List (Sighting F)) :
  Recalls (l.foldl (fun db s => SmartHealthPoller.update s.serial s.disk db) db) (earlier ++ l)
    ∧ (l.foldl (fun db s => SmartHealthPoller.update s.serial s.disk db) db).notifications
      = db.notifications ++ reports earlier l
  := by
  induction l generalizing db earlier with
  | nil => simp [reports, h]
  | cons s l ih =>
      obtain ⟨hrecalls, hposted⟩ := ih (h.update s)
      rw [List.append_assoc, List.singleton_append] at hrecalls
      constructor
      · apply hrecalls
      · rw [List.foldl_cons, hposted, h.notifications_update, reports, List.append_assoc]

/-- A poll whose transaction does not go through changes nothing; another writes down the disks that are
seen in it, and posts their notifications. -/
theorem Recalls.step (h : Recalls db earlier) (e : Event F) {db' : HealthTables}
    (hstep : (machine F).step db e = some db') :
  Recalls db' (earlier ++ e.sightings)
    ∧ ofStorage db'.notifications = ofStorage db.notifications ++ reports earlier e.sightings
  := by
  cases e with
  | passwordOutOfSync user message =>
      cases hstep
      constructor
      · change Recalls _ (earlier ++ [])
        rw [List.append_nil]
        exact h
      · rw [ofStorage, List.filter_append]
        rfl
  | poll inventory commits =>
      cases hstep
      cases inventory with
      | error e => simpa [Event.sightings, pollOnce, reports] using h
      | ok result =>
          cases commits with
          | false => simpa [Event.sightings, pollOnce, reports] using h
          | true =>
              obtain ⟨hrecalls, hposted⟩ := h.foldl_update ((flatten result.disks).filterMap sighting?)
              rw [← updateAll_eq] at hrecalls hposted
              constructor
              · apply hrecalls
              · change ofStorage (updateAll db (flatten result.disks)).notifications = _
                rw [hposted, ofStorage, List.filter_append]
                congr 1
                apply ofStorage_reports

/-- After any polls of a new database, with any requests about users between them, the table of the disks
has a row for each serial number that was seen, which tells of the last time; and the notifications about
the storage are those of the disks that were unhealthy and had not been so in the same way the last time
that they were seen, in the order in which they were seen. -/
theorem notifications_of_run (events : List (Event F)) {db : HealthTables}
    (hrun : (machine F).run HealthTables.empty events = some db) :
  Recalls db (events.flatMap Event.sightings)
    ∧ ofStorage db.notifications = reports [] (events.flatMap Event.sightings)
  := by
  have hall : ∀ (l : List (Event F)) (earlier : List (Sighting F)) (db₀ : HealthTables), Recalls db₀ earlier →
      (machine F).run db₀ l = some db →
      Recalls db (earlier ++ l.flatMap Event.sightings)
        ∧ ofStorage db.notifications
          = ofStorage db₀.notifications ++ reports earlier (l.flatMap Event.sightings) := by
    intro l
    induction l with
    | nil =>
        intro earlier db₀ h hrun
        cases hrun
        simpa [reports] using h
    | cons e l ih =>
        intro earlier db₀ h hrun
        obtain ⟨db₁, hstep, hrun⟩ := (Machine.run_cons_eq_some _).mp hrun
        obtain ⟨hrecalls, hposted⟩ := h.step e hstep
        obtain ⟨hlast, hall⟩ := ih _ db₁ hrecalls hrun
        rw [List.flatMap_cons, ← List.append_assoc, reports_append, ← List.append_assoc, ← hposted]
        exact ⟨hlast, hall⟩
  apply hall events [] HealthTables.empty
  · intro serial
    rfl
  · apply hrun

/-- A poll in which one disk is seen, with a health. -/
def pollOfOne (health : StorageHealth) : Event Unit :=
  .poll (.ok ⟨[.node (⟨"sda", "/dev/sda", "disk", some "WD-1", some "WDC WD40EFRX", none, 4000787030016, true,
    "sata", none, none, none, false, none⟩, some ⟨health, none, none, []⟩) []], [], [], []⟩) true

/-- The polls of a disk that is worn out, that was worn out before, and that recovers in between. -/
def wornDisk : List (Event Unit) :=
  [pollOfOne .ok, pollOfOne .warning, pollOfOne .warning, pollOfOne .ok, pollOfOne .warning,
    pollOfOne .critical]

/-- The notifications of a disk that is worn out twice. -/
theorem notifications_wornDisk :
  ∃ db, (machine Unit).run HealthTables.empty wornDisk = some db
    ∧ Recalls db (wornDisk.flatMap Event.sightings)
    ∧ ofStorage db.notifications = reports [] (wornDisk.flatMap Event.sightings)
  := ⟨_, rfl, notifications_of_run wornDisk rfl⟩

/-- It is reported when it wears out, when it does so again, and when it fails. -/
example :
  (reports [] (wornDisk.flatMap Event.sightings)).map Notification.title
    = ["Disk health: warning", "Disk health: warning", "Disk health: critical"]
  := by decide

end SmartHealthPoller
