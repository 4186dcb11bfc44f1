import TypedClient.Proofs.Emit.Foreign
import TypedClient.Proofs.Package.Links
import TypedClient.Proofs.Package.Write

/-
  This file says which schemas have their units written.  Into an
  open directory both units go, formatted or as they are with a
  warning, unless a surrogate or the null character is in the
  title, the version or the path of an operation; it is emitted
  there as it is, and the reader of units takes no text with it.

  Key definitions include:
    * `Schema.named`
    * `Schema.offered`
    * `Package.IsRefused`
    * `Package.WritesBoth`
    * `Package.WriteAccount`

  Key theorems include:
    * `Generation.mem_models_run_iff`
    * `Generation.mem_client_run_iff`
    * `Package.writeAccount`
    * `Package.not_alwaysWrites`
-/

namespace TypedClient

open FileTree (Path)

------------------------------------------------------------
-- Emitted characters
------------------------------------------------------------

/- The texts that name a schema: its title and its version. -/
def Schema.named (schema : Schema) : RawText :=
  schema.title ++ schema.version

/- The texts of the paths for which a schema has operations. -/
def Schema.offered (schema : Schema) : RawText :=
  (schema.paths.filter fun item => item.2 ≠ []).flatMap Prod.fst

namespace Generation

open Emit (IsForeign Printable)

section

variable {schema : Schema}
variable {site : Option Site}
variable {p : CodePoint}

/- The models of a generation name the schema as it is named. -/
theorem mem_models_run_iff
    (h : IsForeign p)
    (hVisible : p.isChar Text.isBlank = false) :
    p ∈ (run schema site).units.models ↔ p ∈ schema.named := by
  have hReachable := reachable_table_run schema site
  refine Emit.mem_models_iff hReachable.wellFormed ?_ h hVisible
  intro r hr f hf n hn
  exact Emit.printable_of_isPascal
    (hReachable.isPascal_of_mem_references hr hf hn)

theorem printable_responseRecord
    {e : Endpoint}
    {r : String}
    (h : Emit.responseRecord? (run schema site).units.shapes e =
      some r) : Printable r :=
  Emit.printable_of_isPascal
    (isPascal_of_mem_shapes_run (Emit.mem_of_responseRecord? h))

/- The client of a generation shows the paths that are offered. -/
theorem mem_client_run_iff
    (h : IsForeign p) :
    p ∈ (run schema site).units.client ↔ p ∈ schema.offered := by
  have hClient : (run schema site).units.client =
      Emit.client (Endpoint.ofSchema schema)
        (run schema site).units.shapes := rfl
  have hPrintable := Emit.printable_ofSchema schema
  rw [hClient, Emit.mem_client_iff hPrintable.1 hPrintable.2
    (fun e _ r => printable_responseRecord) h]
  rw [Schema.offered, List.mem_flatMap]
  constructor
  · rintro ⟨e, he, hMem⟩
    rcases Endpoint.mem_ofSchema.1 he with
      ⟨item, hItem, operation, hOperation, rfl⟩
    have hSome := decide_eq_true (List.ne_nil_of_mem hOperation)
    exact ⟨item, List.mem_filter.2 ⟨hItem, hSome⟩, hMem⟩
  · rintro ⟨item, hItem, hMem⟩
    rcases List.mem_filter.1 hItem with ⟨hItem, hSome⟩
    rcases List.exists_mem_of_ne_nil _ (of_decide_eq_true hSome)
      with ⟨operation, hOperation⟩
    exact ⟨.ofOperation item.1 operation.1 operation.2,
      Endpoint.mem_ofSchema.2
        ⟨item, hItem, operation, hOperation, rfl⟩, hMem⟩

end

end Generation

------------------------------------------------------------
-- Written packages
------------------------------------------------------------

namespace Package

/-
  What a unit is written as, with the warnings about it: its
  formatted text without any, or its own text with the mistake
  for which it is not accepted.
-/
inductive IsWritten
    (p : Path)
    (file : String)
    (text : RawText) : Text.Bytes → List String → Prop
  | formatted {t : String}
      (h : Source.format file text = .ok t) :
      IsWritten p file text (encoded t) []
  | raw {message : String}
      (h : Source.format file text = .error (.mistake message)) :
      IsWritten p file text (encoded text) [warning p message]

/- What the bytes of a unit are written from. -/
theorem isWritten_of_unitBytes?
    {file : String}
    {text : RawText}
    {bytes : Text.Bytes}
    (p : Path)
    (h : unitBytes? file text = some bytes) :
    IsWritten p file text bytes (unitWarnings p file text) := by
  unfold unitBytes? at h
  unfold unitWarnings
  cases hFormat : Source.format file text with
  | ok t =>
      rw [hFormat] at h
      cases h
      exact .formatted hFormat
  | error e =>
      rw [hFormat] at h
      cases e with
      | mistake message =>
          cases h
          exact .raw hFormat
      | unreadable e => cases h

/-
  Writing a package succeeds: both units are in their files, each
  formatted or with a warning about it, and nothing is missing.
-/
structure WritesBoth
    (tree : FileTree)
    (out : Path)
    (units : Units) : Prop where
  fault : (write tree out units).fault = none
  paths : (write tree out units).paths = writtenPaths tree out
  units : ∃ models client modelsWarnings clientWarnings,
    IsWritten (out.child modelsFile) modelsFile units.models
        models modelsWarnings ∧
      IsWritten (out.child clientFile) clientFile units.client
        client clientWarnings ∧
      (write tree out units).warnings =
        modelsWarnings ++ clientWarnings ∧
      Packed out models client tree (write tree out units).tree

/- Every schema has both of its units written. -/
def AlwaysWrites : Prop :=
  ∀ d schema, Schema.ofDocument d = .ok schema →
    ∀ site tree out, IsOpen tree out →
      WritesBoth tree out (Generation.run schema site).units

section

variable {tree : FileTree}
variable {out : Path}
variable {units : Units}

/- Both units are written just if both can be read. -/
theorem writesBoth_iff
    (hOpen : IsOpen tree out) :
    WritesBoth tree out units ↔
      unreadable? units.models = none ∧
        unreadable? units.client = none := by
  rw [← exists_unitBytes?_iff modelsFile,
    ← exists_unitBytes?_iff clientFile]
  constructor
  · exact fun h => (fault_write_iff.1 h.fault).2
  · rintro ⟨⟨models, hModels⟩, client, hClient⟩
    have hWrite := write_eq hOpen hModels hClient
    refine
      { fault := by rw [hWrite]
        paths := by rw [hWrite]
        units := ⟨models, client, _, _,
          isWritten_of_unitBytes? _ hModels,
          isWritten_of_unitBytes? _ hClient, ?_, ?_⟩ }
    · rw [hWrite]
      rfl
    · rw [hWrite]
      exact packed_marked tree out models client

end

------------------------------------------------------------
-- Schemas
------------------------------------------------------------

/- A code point that the reader of units does not take. -/
inductive IsRefused : CodePoint → Prop
  | surrogate (k : Fin 0x800) : IsRefused (.surrogate k)
  | nullCharacter : IsRefused (.scalar '\x00')

/- A text can be read unless such a code point is in it. -/
theorem unreadable?_eq_none_iff
    {text : RawText} :
    unreadable? text = none ↔ ∀ p ∈ text, ¬ IsRefused p := by
  have hChars := RawText.toChars?_eq_none_iff (t := text)
  unfold unreadable?
  split
  next hNone =>
    rcases hChars.1 hNone with ⟨k, hk⟩
    exact iff_of_false (fun h => by cases h)
      fun h => h _ hk (.surrogate k)
  next hSome =>
    split
    next hNull =>
      exact iff_of_false (fun h => by cases h)
        fun h => h _ hNull .nullCharacter
    next hNull =>
      refine iff_of_true rfl ?_
      rintro p hp (k | _)
      · exact hSome (hChars.2 ⟨k, hp⟩)
      · exact hNull hp

section

variable (schema : Schema)
variable (site : Option Site)

/- The models cannot be read for what the schema is named. -/
theorem unreadable?_models_run :
    unreadable? (Generation.run schema site).units.models =
      unreadable? schema.named :=
  unreadable?_congr
    (fun k => Generation.mem_models_run_iff
      (Emit.isForeign_surrogate k) rfl)
    (Generation.mem_models_run_iff Emit.isForeign_null rfl)

/- The client cannot be read for the paths that it offers. -/
theorem unreadable?_client_run :
    unreadable? (Generation.run schema site).units.client =
      unreadable? schema.offered :=
  unreadable?_congr
    (fun k => Generation.mem_client_run_iff
      (Emit.isForeign_surrogate k))
    (Generation.mem_client_run_iff Emit.isForeign_null)

end

/-
  How writing the package of a schema ends in a directory.

    * `both`: both units are written just if no surrogate and no
      null character is in the title, the version or a path
    * `nothing`: with one in the title or the version, nothing is
      written, and the step ends with a fault
    * `half`: with one in a path, the models are written, but the
      client is not, and the step ends with a fault
-/
structure WriteAccount
    (tree : FileTree)
    (out : Path)
    (schema : Schema)
    (units : Units) : Prop where
  both : WritesBoth tree out units ↔
    ∀ p ∈ schema.named ++ schema.offered, ¬ IsRefused p
  nothing (e : Source.Unreadable) :
    unreadable? schema.named = some e →
      write tree out units =
        ⟨tree.withDirectory out, [], [], some (.unreadable e)⟩
  half (e : Source.Unreadable) :
    unreadable? schema.named = none →
      unreadable? schema.offered = some e →
        ∃ models warnings,
          IsWritten (out.child modelsFile) modelsFile units.models
              models warnings ∧
            write tree out units =
              ⟨(tree.withDirectory out).put (out.child modelsFile)
                  models,
                [out.child modelsFile], warnings,
                some (.unreadable e)⟩

/- The package of a schema is written as told. -/
theorem writeAccount
    {tree : FileTree}
    {out : Path}
    (hOpen : IsOpen tree out)
    (schema : Schema)
    (site : Option Site) :
    WriteAccount tree out schema
      (Generation.run schema site).units := by
  have hModels := unreadable?_models_run schema site
  have hClient := unreadable?_client_run schema site
  constructor
  case both =>
    rw [writesBoth_iff hOpen, hModels, hClient,
      unreadable?_eq_none_iff, unreadable?_eq_none_iff,
      List.forall_mem_append]
  case nothing =>
    intro e hNamed
    exact write_eq_of_models hOpen (hModels.trans hNamed)
  case half =>
    intro e hNamed hOffered
    rcases (exists_unitBytes?_iff modelsFile).2
        (hModels.trans hNamed) with
      ⟨models, hBytes⟩
    exact ⟨models, _, isWritten_of_unitBytes? _ hBytes,
      write_eq_of_client hOpen hBytes (hClient.trans hOffered)⟩

/- A document with the null character in its title. -/
def nullDocument : Document :=
  .mapping
    [(.ofString "info",
        .mapping [(.ofString "title", .ofString "nul\x00")]),
      (.ofString "paths", .mapping [])]

/- The schema with the null character in its title. -/
def nullSchema : Schema :=
  ⟨"nul\x00", "", []⟩

/- The package of that schema is not written. -/
theorem not_alwaysWrites : ¬ AlwaysWrites := by
  intro h
  have hOpen : IsOpen .empty ["out"] :=
    ⟨by decide, by decide, by decide, by decide⟩
  have hSchema : Schema.ofDocument nullDocument = .ok nullSchema :=
    rfl
  have hBoth := h nullDocument nullSchema hSchema none .empty
    ["out"] hOpen
  have hModels := ((writesBoth_iff hOpen).1 hBoth).1
  rw [unreadable?_models_run] at hModels
  cases hModels

/- The package of that schema, in a directory that is not there. -/
theorem writeAccount_null :
    IsOpen .empty ["out"] ∧
      WriteAccount .empty ["out"] nullSchema
        (Generation.run nullSchema none).units := by
  have hOpen : IsOpen .empty ["out"] :=
    ⟨by decide, by decide, by decide, by decide⟩
  exact ⟨hOpen, writeAccount hOpen nullSchema none⟩

end Package

end TypedClient
