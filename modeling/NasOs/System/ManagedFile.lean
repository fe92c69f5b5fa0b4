import NasOs.Library.Protocol
import NasOs.Rpc.Dispatcher

/-!
# Managed files

`write_and_apply` puts the content of a configuration file in place, validates it and applies it; when
the validation or the application fails, it restores what it found before it wrote.  Between two
awaits it cannot be interrupted: it reads the previous bytes and renames the new file over them in one
piece, and then waits for `restorecon`.

Any step may raise some other exception, as when the disk is full; nothing is restored then.
-/

/-- What a step of `write_and_apply` raises. -/
inductive ConfigError where
  /-- `ConfigValidationError`. -/
  | invalid (detail : String)
  /-- `ConfigApplyError`. -/
  | applyFailed (detail : String)
  /-- Any other exception. -/
  | other (message : String)
  deriving DecidableEq

/-- The steps of `write_and_apply` between which other calls may run. -/
inductive ConfigOp where
  /-- Read the file and put a content in its place. -/
  | replace (content : List UInt8)
  /-- Run `restorecon` on the file. -/
  | restorecon
  /-- `_backup`. -/
  | backup (previous : List UInt8)
  /-- `validate`. -/
  | validate
  /-- `apply`. -/
  | apply
  /-- Remove the file, if it is there. -/
  | unlink
  /-- Put a previous content back in place. -/
  | putBack (previous : List UInt8)
  deriving DecidableEq

/-- What the steps return. -/
abbrev ConfigOp.Returned : ConfigOp → Type
  | .replace _ => Option (List UInt8)
  | _ => Unit

/-- The answers to the steps. -/
abbrev ConfigOp.Answer (op : ConfigOp) : Type :=
  Except ConfigError op.Returned

/-- A computation on a managed file. -/
abbrev ConfigM (α : Type) : Type :=
  ExceptT ConfigError (Coroutine ConfigOp ConfigOp.Answer) α

/-- Await a step, or raise what it raises. -/
def ConfigOp.perform (op : ConfigOp) : ConfigM op.Returned :=
  ExceptT.mk (Coroutine.perform op)

/-- `ManagedFile`: the bytes that are rendered, and whether it has a validation and an application. -/
structure ManagedFile where
  content : List UInt8
  validates : Bool
  applies : Bool

namespace ManagedFile

/-- `_restore`. -/
def restore : Option (List UInt8) → ConfigM Unit
  | none => ConfigOp.perform .unlink
  | some previous => do
      ConfigOp.perform (.putBack previous)
      ConfigOp.perform .restorecon

/-- The validation, and the rollback if it fails. -/
def validated (previous : Option (List UInt8)) : ConfigM Unit :=
  tryCatch (ConfigOp.perform .validate)
    fun
      | .invalid detail => do
          restore previous
          throw (.invalid detail)
      | e => throw e

/-- The application, and the rollback if it fails, after which the old configuration is applied. -/
def applied (previous : Option (List UInt8)) : ConfigM Unit :=
  tryCatch (ConfigOp.perform .apply)
    fun
      | .applyFailed detail => do
          restore previous
          tryCatch (ConfigOp.perform .apply)
            fun
              | .applyFailed _ => pure ()
              | e => throw e
          throw (.applyFailed detail)
      | e => throw e

/-- `_backup` of what was found, if anything was. -/
def backedUp : Option (List UInt8) → ConfigM Unit
  | none => pure ()
  | some previous => ConfigOp.perform (.backup previous)

/-- The validation and the application, where the file has them. -/
def checked (file : ManagedFile) (previous : Option (List UInt8)) : ConfigM Unit := do
  (if file.validates then validated previous else pure ())
  (if file.applies then applied previous else pure ())

/-- `write_and_apply`. -/
def writeAndApply (sha256 : List UInt8 → String) (file : ManagedFile) : ConfigM String := do
  let previous ← ConfigOp.perform (.replace file.content)
  ConfigOp.perform .restorecon
  backedUp previous
  file.checked previous
  pure (sha256 file.content)

end ManagedFile

/-! ### How a call proceeds -/

/-- How far a call is, and what it found before it wrote. -/
inductive ConfigStage where
  /-- Nothing was written. -/
  | fresh
  /-- Its content was put in place. -/
  | written (previous : Option (List UInt8))
  /-- The validation or the application failed. -/
  | failing (previous : Option (List UInt8))
  /-- What it found is back in place. -/
  | rolledBack
  /-- Nothing was written, and nothing will be. -/
  | unwritten
  /-- Its content was put in place, and another exception was raised. -/
  | lost

/-- The step that restores what was found. -/
def ConfigOp.restores : Option (List UInt8) → ConfigOp
  | none => .unlink
  | some previous => .putBack previous

/-- Where the exception of a step leads. -/
def ConfigOp.failed (previous : Option (List UInt8)) : ConfigOp → ConfigError → ConfigStage
  | .validate, .invalid _ => .failing previous
  | .apply, .applyFailed _ => .failing previous
  | _, _ => .lost

namespace ManagedFile

/-- Content is put in place, validated and applied; when that fails, what was found is restored. -/
def protocol (file : ManagedFile) : Protocol ConfigOp ConfigOp.Answer ConfigStage where
  allowed stage op :=
    match stage with
    | .fresh => op = .replace file.content
    | .written _ => op = .restorecon ∨ (∃ bytes, op = .backup bytes) ∨ op = .validate ∨ op = .apply
    | .failing previous => op = .restores previous
    | .rolledBack => op = .restorecon ∨ op = .apply
    | .unwritten => False
    | .lost => False
  next stage op :=
    match stage, op with
    | .fresh, .replace _ => fun
        | .ok previous => .written previous
        | .error _ => .unwritten
    | .written previous, op => fun
        | .ok _ => .written previous
        | .error e => op.failed previous e
    | .failing _, _ => fun
        | .ok _ => .rolledBack
        | .error _ => .lost
    | stage, _ => fun _ => stage

/-- A call returns exactly if its content is in place, and it does not end while it is failing. -/
def ends {α : Type} (stage : ConfigStage) (result : Except ConfigError α) : Prop :=
  match stage with
  | .written _ => ∃ a, result = .ok a
  | .fresh => False
  | .failing _ => False
  | _ => ∃ e, result = .error e

/-- Once its content is in place, a call goes on, or it ends with an exception. -/
def Continues {α : Type} (previous : Option (List UInt8)) (stage : ConfigStage)
    (result : Except ConfigError α) : Prop :=
  (stage = .written previous ∧ ∃ a, result = .ok a)
    ∨ (stage = .rolledBack ∨ stage = .lost) ∧ ∃ e, result = .error e

variable {file : ManagedFile} {previous : Option (List UInt8)}

theorem Continues.ends {α : Type} {stage : ConfigStage} {result : Except ConfigError α}
    (h : Continues previous stage result) :
  ends stage result
  := by
  rcases h with ⟨rfl, h⟩ | ⟨rfl | rfl, h⟩
  · apply h
  · apply h
  · apply h

/-- A step that goes on when nothing is raised. -/
theorem obeys_written {op : ConfigOp} (hallowed : file.protocol.allowed (.written previous) op)
    (hvalidate : op ≠ .validate) (happly : op ≠ .apply) :
  op.perform.run.Obeys file.protocol (Continues previous) (.written previous)
  := by
  constructor
  · apply hallowed
  · rintro (e | a)
    · right
      constructor
      · right
        cases op with
        | validate => apply absurd rfl hvalidate
        | apply => apply absurd rfl happly
        | _ =>
            cases e
            all_goals rfl
      · use e
    · left
      constructor
      · cases op
        all_goals rfl
      · use a

/-- A restoration ends with the file rolled back, or with an exception. -/
theorem obeys_restore (previous : Option (List UInt8)) :
  (restore previous).run.Obeys file.protocol
    (fun stage result => stage = .rolledBack ∨ stage = .lost ∧ ∃ e, result = .error e)
    (.failing previous)
  := by
  cases previous with
  | none =>
      constructor
      · rfl
      · rintro (e | a)
        · right
          exact ⟨rfl, e, rfl⟩
        · left
          rfl
  | some previous =>
      apply Coroutine.Obeys.exceptT_bind
        (Q := fun stage result => stage = .rolledBack ∨ stage = .lost ∧ ∃ e, result = .error e)
      · constructor
        · rfl
        · rintro (e | a)
          · right
            exact ⟨rfl, e, rfl⟩
          · left
            rfl
      · rintro stage _ (rfl | ⟨rfl, e, ⟨⟩⟩)
        constructor
        · left
          rfl
        · intro answer
          left
          rfl
      · rintro stage e (rfl | ⟨rfl, _⟩)
        · left
          rfl
        · right
          exact ⟨rfl, e, rfl⟩

/-- After a restoration, a call raises what made it fail. -/
theorem obeys_restore_bind {α : Type} {f : Unit → ConfigM α}
    (hf : (f ()).run.Obeys file.protocol (Continues previous) .rolledBack) :
  (restore previous >>= f).run.Obeys file.protocol (Continues previous) (.failing previous)
  := by
  apply (obeys_restore previous).exceptT_bind
  · rintro stage _ (rfl | ⟨rfl, e, ⟨⟩⟩)
    apply hf
  · rintro stage e (rfl | ⟨rfl, -⟩)
    · right
      exact ⟨Or.inl rfl, e, rfl⟩
    · right
      exact ⟨Or.inr rfl, e, rfl⟩

/-- The validation obeys the protocol. -/
theorem obeys_validated (previous : Option (List UInt8)) :
  (validated previous).run.Obeys file.protocol (Continues previous) (.written previous)
  := by
  apply Coroutine.Obeys.tryCatch (Q := fun stage result =>
    match result with
    | .ok _ => stage = .written previous
    | .error (.invalid _) => stage = .failing previous
    | .error _ => stage = .lost)
  · constructor
    · right
      right
      left
      rfl
    · rintro ((_ | _ | _) | _)
      · rfl
      · rfl
      · rfl
      · rfl
  · rintro stage a rfl
    left
    exact ⟨rfl, a, rfl⟩
  · rintro stage (detail | detail | message) rfl
    · apply obeys_restore_bind
      right
      exact ⟨Or.inl rfl, _, rfl⟩
    · right
      exact ⟨Or.inr rfl, _, rfl⟩
    · right
      exact ⟨Or.inr rfl, _, rfl⟩

/-- The application obeys the protocol. -/
theorem obeys_applied (previous : Option (List UInt8)) :
  (applied previous).run.Obeys file.protocol (Continues previous) (.written previous)
  := by
  apply Coroutine.Obeys.tryCatch (Q := fun stage result =>
    match result with
    | .ok _ => stage = .written previous
    | .error (.applyFailed _) => stage = .failing previous
    | .error _ => stage = .lost)
  · constructor
    · right
      right
      right
      rfl
    · rintro ((_ | _ | _) | _)
      · rfl
      · rfl
      · rfl
      · rfl
  · rintro stage a rfl
    left
    exact ⟨rfl, a, rfl⟩
  · rintro stage (detail | detail | message) rfl
    · right
      exact ⟨Or.inr rfl, _, rfl⟩
    · apply obeys_restore_bind
      apply Coroutine.Obeys.exceptT_bind (Q := fun stage _ => stage = .rolledBack)
      · apply Coroutine.Obeys.tryCatch (Q := fun stage _ => stage = .rolledBack)
        · constructor
          · right
            rfl
          · intro answer
            rfl
        · intro stage a h
          apply h
        · rintro stage (detail | detail | message) rfl
          · rfl
          · rfl
          · rfl
      · rintro stage _ rfl
        right
        exact ⟨Or.inl rfl, _, rfl⟩
      · rintro stage e rfl
        right
        exact ⟨Or.inl rfl, e, rfl⟩
    · right
      exact ⟨Or.inr rfl, _, rfl⟩

/-- What follows a step that continues begins with the written file, unless the step raised. -/
theorem obeys_continues_bind_of {α β : Type} {c : ConfigM α} {f : α → ConfigM β}
    {Q : ConfigStage → Except ConfigError β → Prop}
    (hc : c.run.Obeys file.protocol (Continues previous) (.written previous))
    (hf : ∀ a, (f a).run.Obeys file.protocol Q (.written previous))
    (herror : ∀ stage e, stage = .rolledBack ∨ stage = .lost → Q stage (.error e)) :
  (c >>= f).run.Obeys file.protocol Q (.written previous)
  := by
  apply hc.exceptT_bind
  · rintro stage a (⟨rfl, -⟩ | ⟨-, e, ⟨⟩⟩)
    apply hf
  · rintro stage e (⟨-, a, ⟨⟩⟩ | ⟨hstage, -⟩)
    apply herror stage e hstage

/-- What goes on from the written file, goes on after a step that continues. -/
theorem obeys_continues_bind {α β : Type} {c : ConfigM α} {f : α → ConfigM β}
    (hc : c.run.Obeys file.protocol (Continues previous) (.written previous))
    (hf : ∀ a, (f a).run.Obeys file.protocol (Continues previous) (.written previous)) :
  (c >>= f).run.Obeys file.protocol (Continues previous) (.written previous)
  := by
  apply obeys_continues_bind_of hc hf
  intro stage e hstage
  right
  exact ⟨hstage, e, rfl⟩

/-- A step that is left out. -/
theorem obeys_pure {α : Type} (a : α) :
  (pure a : ConfigM α).run.Obeys file.protocol (Continues previous) (.written previous)
  := by
  left
  exact ⟨rfl, a, rfl⟩

/-- The checks of a file obey the protocol. -/
theorem obeys_checked (file : ManagedFile) (previous : Option (List UInt8)) :
  (file.checked previous).run.Obeys file.protocol (Continues previous) (.written previous)
  := by
  rw [checked]
  apply obeys_continues_bind
  · split
    · apply obeys_validated
    · apply obeys_pure
  · intro _
    split
    · apply obeys_applied
    · apply obeys_pure

/-- A call obeys its protocol, and returns the hash of its content. -/
theorem obeys_writeAndApply_hash (sha256 : List UInt8 → String) (file : ManagedFile) :
  (file.writeAndApply sha256).run.Obeys file.protocol
    (fun stage result => ends stage result ∧ ∀ hash, result = .ok hash → hash = sha256 file.content)
    .fresh
  := by
  have herror : ∀ (stage : ConfigStage) (e : ConfigError), stage = .rolledBack ∨ stage = .lost →
      ends stage (.error e : Except ConfigError String)
        ∧ ∀ hash, (.error e : Except ConfigError String) = .ok hash → hash = sha256 file.content := by
    rintro stage e (rfl | rfl)
    · exact ⟨⟨e, rfl⟩, nofun⟩
    · exact ⟨⟨e, rfl⟩, nofun⟩
  constructor
  · rfl
  · rintro (e | previous)
    · exact ⟨⟨e, rfl⟩, nofun⟩
    · apply obeys_continues_bind_of _ _ herror
      · apply obeys_written
        · left
          rfl
        · rintro ⟨⟩
        · rintro ⟨⟩
      intro _
      apply obeys_continues_bind_of _ _ herror
      · cases previous with
        | none => apply obeys_pure
        | some bytes =>
            apply obeys_written
            · right
              left
              use bytes
            · rintro ⟨⟩
            · rintro ⟨⟩
      intro _
      apply obeys_continues_bind_of _ _ herror
      · apply obeys_checked
      intro _
      constructor
      · use sha256 file.content
      · rintro hash ⟨⟩
        rfl

/-- A call obeys its protocol. -/
theorem obeys_writeAndApply (sha256 : List UInt8 → String) (file : ManagedFile) :
  (file.writeAndApply sha256).run.Obeys file.protocol ends .fresh
  := by
  apply (obeys_writeAndApply_hash sha256 file).mono
  intro stage result h
  apply h.1

end ManagedFile
