import CableRegistry.Lib.Delimited
import CableRegistry.SnapshotCodec

/-!
# Different snapshots have different bytes

The decoder reads back only what is within its bounds.  That the encoding can be told apart does not
depend on them: every field has a fixed length or says how long it is, so two snapshots whose fields
are written as the same bytes are the same snapshot (`snapshotFields_injective`), as long as no count
runs over its 32 bits, which a buffer of eight mebibytes rules out.

Fields of one kind tell what was written (`content_of_toBytes`), and so do lists of the same kinds
of fields (`tells_fields`).  Each kind of record has its lemma `delimited_…`.
-/

open Std

namespace CableRegistry

/-! ### Fields -/

namespace Write

/-- The kind of a field. -/
def shape : Write → Write
  | u8 _ => u8 0
  | u16 _ => u16 0
  | u32 _ => u32 0
  | u64 _ => u64 0
  | i64 _ => i64 0
  | boolean _ => boolean false
  | id128 _ => id128 {}
  | bytes _ => bytes []
  | string _ _ => string [] 0

/-- What can be told of a field: all but the bound on a text. -/
def content : Write → Write
  | string v _ => string v 0
  | w => w

end Write

/-- Two numbers within their width are told apart. -/
theorem eq_of_leBytes {w a b : Nat} {rest rest' : List UInt8} (ha : a < 256 ^ w) (hb : b < 256 ^ w)
    (h : leBytes w a ++ rest = leBytes w b ++ rest') : a = b ∧ rest = rest' := by
  obtain ⟨hw, hrest⟩ := eq_of_append_of_length (by simp) h
  exact ⟨leBytes_injective ha hb hw, hrest⟩

/-- Two texts that start with their length are told apart. -/
theorem eq_of_counted {a b rest rest' : List UInt8} (ha : a.length < 2 ^ 32) (hb : b.length < 2 ^ 32)
    (h : leBytes 4 a.length ++ a ++ rest = leBytes 4 b.length ++ b ++ rest') :
    a = b ∧ rest = rest' := by
  simp only [List.append_assoc] at h
  obtain ⟨hcount, h⟩ := eq_of_leBytes ha hb h
  exact eq_of_append_of_length hcount h

/-- **Fields of one kind** tell what was written. -/
theorem content_of_toBytes {w w' : Write} {rest rest' : List UInt8} (hs : w.shape = w'.shape)
    (hw : w.toBytes.length < 2 ^ 32) (hw' : w'.toBytes.length < 2 ^ 32)
    (h : w.toBytes ++ rest = w'.toBytes ++ rest') : w.content = w'.content ∧ rest = rest' := by
  cases w <;> cases w' <;> cases hs <;> simp only [Write.toBytes] at h hw hw'
  case u8 a b => exact ⟨congrArg Write.u8 (List.cons.inj h).1, (List.cons.inj h).2⟩
  case u16 a b =>
    obtain ⟨hab, hrest⟩ := eq_of_leBytes a.toNat_lt b.toNat_lt h
    exact ⟨congrArg Write.u16 (UInt16.toNat_inj.mp hab), hrest⟩
  case u32 a b =>
    obtain ⟨hab, hrest⟩ := eq_of_leBytes a.toNat_lt b.toNat_lt h
    exact ⟨congrArg Write.u32 (UInt32.toNat_inj.mp hab), hrest⟩
  case u64 a b =>
    obtain ⟨hab, hrest⟩ := eq_of_leBytes a.toNat_lt b.toNat_lt h
    exact ⟨congrArg Write.u64 (UInt64.toNat_inj.mp hab), hrest⟩
  case i64 a b =>
    obtain ⟨hab, hrest⟩ := eq_of_leBytes a.toUInt64.toNat_lt b.toUInt64.toNat_lt h
    have hback := congrArg UInt64.toInt64 (UInt64.toNat_inj.mp hab)
    rw [Int64.toInt64_toUInt64, Int64.toInt64_toUInt64] at hback
    exact ⟨congrArg Write.i64 hback, hrest⟩
  case boolean a b =>
    obtain ⟨hab, hrest⟩ := List.cons.inj h
    refine ⟨congrArg Write.boolean ?_, hrest⟩
    cases a <;> cases b <;> first | rfl | exact absurd hab (by decide)
  case id128 a b =>
    simp only [List.append_assoc] at h
    obtain ⟨hhi, h⟩ := eq_of_leBytes a.hi.toNat_lt b.hi.toNat_lt h
    obtain ⟨hlo, hrest⟩ := eq_of_leBytes a.lo.toNat_lt b.lo.toNat_lt h
    exact ⟨congrArg Write.id128 (congrArg₂ Id128.mk (UInt64.toNat_inj.mp hhi) (UInt64.toNat_inj.mp hlo)),
      hrest⟩
  case bytes a b =>
    simp only [List.length_append, length_leBytes] at hw hw'
    obtain ⟨hab, hrest⟩ := eq_of_counted (by omega) (by omega) h
    exact ⟨congrArg Write.bytes hab, hrest⟩
  case string a m b m' =>
    simp only [List.length_append, length_leBytes] at hw hw'
    obtain ⟨hab, hrest⟩ := eq_of_counted (by omega) (by omega) h
    exact ⟨congrArg (Write.string · 0) hab, hrest⟩

theorem content_of_wire {ws ws' : List Write} {rest rest' : List UInt8}
    (hs : ws.map Write.shape = ws'.map Write.shape) (hw : (wire ws).length < 2 ^ 32)
    (hw' : (wire ws').length < 2 ^ 32) (h : wire ws ++ rest = wire ws' ++ rest') :
    ws.map Write.content = ws'.map Write.content ∧ rest = rest' := by
  induction ws generalizing ws' with
  | nil =>
    obtain rfl : ws' = [] := List.map_eq_nil_iff.mp hs.symm
    exact ⟨rfl, h⟩
  | cons w ws ih =>
    cases ws' with
    | nil => exact absurd hs (by simp)
    | cons w' ws' =>
      obtain ⟨hshape, hshapes⟩ := List.cons.inj hs
      simp only [wire_cons, List.length_append, List.append_assoc] at h hw hw'
      obtain ⟨hcontent, htail⟩ := content_of_toBytes hshape (by omega) (by omega) h
      obtain ⟨hcontents, hrest⟩ := ih hshapes (by omega) (by omega) htail
      exact ⟨by rw [List.map_cons, List.map_cons, hcontent, hcontents], hrest⟩

variable {α β γ : Type} {limits : Limits}

/-- **Records with the same kinds of fields** tell what was written. -/
theorem tells_fields {ws : α → List Write}
    (hs : ∀ x y, (ws x).map Write.shape = (ws y).map Write.shape) :
    Tells (2 ^ 32) (fun x => wire (ws x)) fun x => (ws x).map Write.content :=
  fun x y _ _ hx hy h => content_of_wire (hs x y) hx hy h

theorem tells_append {n : Nat} {ws ws' : α → List Write} {φ : α → β} {ψ : α → γ}
    (h : Tells n (fun x => wire (ws x)) φ) (h' : Tells n (fun x => wire (ws' x)) ψ) :
    Tells n (fun x => wire (ws x ++ ws' x)) fun x => (φ x, ψ x) := by
  simp only [wire_append]
  exact h.append h'

/-- No field is written as nothing. -/
theorem length_wire_pos {ws : List Write} (h : ws ≠ []) : 0 < (wire ws).length := by
  obtain ⟨w, ws, rfl⟩ := List.exists_cons_of_ne_nil h
  rw [wire_cons, List.length_append]
  cases w <;> simp [Write.toBytes]

theorem delimited_list {enc : α → List Write} (hne : ∀ x, enc x ≠ [])
    (h : Delimited (2 ^ 32) fun x => wire (enc x)) :
    Delimited (2 ^ 32) fun l => wire (encodeList enc l) := by
  intro l l' rest rest' hl hl' heq
  simp only [encodeList, wire_cons, wire_flatMap, List.append_assoc, List.length_append] at hl hl' heq
  have hle := Delimited.length_le_flatMap (fun x => length_wire_pos (hne x)) l
  have hle' := Delimited.length_le_flatMap (fun x => length_wire_pos (hne x)) l'
  obtain ⟨hcount, heq⟩ := eq_of_leBytes (UInt32.toNat_lt _) (UInt32.toNat_lt _) heq
  have hlen : l.length = l'.length := by
    rwa [UInt32.toNat_ofNat', UInt32.toNat_ofNat', Nat.mod_eq_of_lt (by omega),
      Nat.mod_eq_of_lt (by omega)] at hcount
  exact h.flatMap hlen (by omega) (by omega) heq

/-! ### Records -/

theorem delimited_objectSideRef : Delimited (2 ^ 32) fun v => wire (encodeObjectSideRef v) := by
  refine (tells_fields fun _ _ => rfl).delimited ?_
  rintro ⟨⟨object⟩, side⟩ ⟨⟨object'⟩, side'⟩ h
  simp_all [encodeObjectSideRef, Write.content]

theorem delimited_portRef : Delimited (2 ^ 32) fun v => wire (encodePortRef v) := by
  refine (tells_fields fun _ _ => rfl).delimited ?_
  rintro ⟨⟨endpoint⟩, index⟩ ⟨⟨endpoint'⟩, index'⟩ h
  simp_all [encodePortRef, Write.content]

theorem delimited_portCapability : Delimited (2 ^ 32) fun v => wire (encodePortCapability v) := by
  refine (tells_fields fun _ _ => rfl).delimited ?_
  rintro ⟨capacity, ⟨connector⟩, ⟨media⟩, lanes⟩ ⟨capacity', ⟨connector'⟩, ⟨media'⟩, lanes'⟩ h
  simp_all [encodePortCapability, Write.content]

theorem delimited_sideDescriptor : Delimited (2 ^ 32) fun v => wire (encodeSideDescriptor v) := by
  refine (tells_fields fun _ _ => rfl).delimited ?_
  rintro ⟨⟨connector⟩, ⟨media⟩, lanes⟩ ⟨⟨connector'⟩, ⟨media'⟩, lanes'⟩ h
  simp_all [encodeSideDescriptor, Write.content]

theorem delimited_sides : Delimited (2 ^ 32) fun l => wire (encodeList encodeSideDescriptor l) :=
  delimited_list (fun _ => List.cons_ne_nil _ _) delimited_sideDescriptor

theorem delimited_capability : Delimited (2 ^ 32) fun v => wire (encodeCapability v limits) := by
  refine (tells_fields fun _ _ => rfl).delimited ?_
  rintro ⟨⟨media⟩, ⟨connector⟩, lanes, rate, total, reach, declared, code⟩
    ⟨⟨media'⟩, ⟨connector'⟩, lanes', rate', total', reach', declared', code'⟩ h
  simp_all [encodeCapability, Write.content]

theorem delimited_claim : Delimited (2 ^ 32) fun v => wire (encodeClaim v) := by
  refine (tells_fields fun _ _ => rfl).delimited ?_
  rintro ⟨⟨source⟩, incarnation, generation, ⟨evidence⟩, observedAt, ⟨provenance⟩, ⟨⟨cls⟩, rank⟩⟩
    ⟨⟨source'⟩, incarnation', generation', ⟨evidence'⟩, observedAt', ⟨provenance'⟩, ⟨⟨cls'⟩, rank'⟩⟩ h
  simp_all [encodeClaim, Write.content]

theorem delimited_claims : Delimited (2 ^ 32) fun l => wire (encodeList encodeClaim l) :=
  delimited_list (fun _ => List.cons_ne_nil _ _) delimited_claim

theorem delimited_attachment : Delimited (2 ^ 32) fun v => wire (encodeAttachment v) := by
  refine (tells_append (tells_fields fun _ _ => rfl)
    (delimited_claims.tells SnapshotAttachment.claims)).delimited ?_
  rintro ⟨⟨⟨object⟩, side⟩, ⟨⟨endpoint⟩, index⟩, slot, incarnation, ⟨⟨cls⟩, rank⟩, connector, media,
      conflicting, claims⟩
    ⟨⟨⟨object'⟩, side'⟩, ⟨⟨endpoint'⟩, index'⟩, slot', incarnation', ⟨⟨cls'⟩, rank'⟩, connector', media',
      conflicting', claims'⟩ h
  simp_all [encodeObjectSideRef, encodePortRef, encodeAuthority, Write.content]

theorem delimited_conflict : Delimited (2 ^ 32) fun v => wire (encodeConflict v) := by
  refine (tells_append (tells_fields fun _ _ => rfl)
    (delimited_claims.tells SnapshotConflict.claims)).delimited ?_
  rintro ⟨reason, ⟨⟨object⟩, side⟩, ⟨⟨endpoint⟩, index⟩, claims⟩
    ⟨reason', ⟨⟨object'⟩, side'⟩, ⟨⟨endpoint'⟩, index'⟩, claims'⟩ h
  have hreason := @ConflictReason.raw_injective reason reason'
  simp_all [encodeObjectSideRef, encodePortRef, Write.content]

theorem delimited_attachments : Delimited (2 ^ 32) fun l => wire (encodeList encodeAttachment l) :=
  delimited_list (fun _ => List.cons_ne_nil _ _) delimited_attachment

theorem PortAttachmentState.raw_injective : Function.Injective PortAttachmentState.raw :=
  fun a b h => by rw [← a.ofRaw_raw.1, ← b.ofRaw_raw.1, h]

theorem LifecycleState.raw_injective : Function.Injective LifecycleState.raw :=
  fun a b h => by rw [← a.ofRaw_raw.1, ← b.ofRaw_raw.1, h]

theorem delimited_port : Delimited (2 ^ 32) fun v => wire (encodePort v) := by
  have hconflicts := delimited_list (fun _ => List.cons_ne_nil _ _) delimited_conflict
  refine (tells_append (tells_append (tells_fields fun _ _ => rfl)
    (delimited_attachments.tells SnapshotPort.attachments))
    (hconflicts.tells SnapshotPort.conflicts)).delimited ?_
  rintro ⟨⟨⟨endpoint⟩, index⟩, state, ⟨capacity, ⟨connector⟩, ⟨media⟩, lanes⟩, attachments, conflicts⟩
    ⟨⟨⟨endpoint'⟩, index'⟩, state', ⟨capacity', ⟨connector'⟩, ⟨media'⟩, lanes'⟩, attachments',
      conflicts'⟩ h
  simp_all [encodePortRef, encodePortCapability, Write.content,
    PortAttachmentState.raw_injective.eq_iff]

theorem delimited_object : Delimited (2 ^ 32) fun v => wire (encodeObject v limits) := by
  refine (tells_append (tells_append (tells_append (tells_fields fun _ _ => rfl)
    (delimited_capability.tells SnapshotObject.capability))
    (delimited_sides.tells SnapshotObject.sides))
    (delimited_attachments.tells SnapshotObject.attachments)).delimited ?_
  rintro ⟨⟨id⟩, ⟨kind⟩, label, serial, location, incarnation, lifecycle, capability, sides, attachments⟩
    ⟨⟨id'⟩, ⟨kind'⟩, label', serial', location', incarnation', lifecycle', capability', sides',
      attachments'⟩ h
  simp_all [Write.content, LifecycleState.raw_injective.eq_iff]

theorem delimited_endpoint : Delimited (2 ^ 32) fun v => wire (encodeEndpoint v limits) := by
  refine (tells_append (tells_fields fun _ _ => rfl)
    (delimited_portCapability.tells SnapshotEndpoint.defaultPortCapability)).delimited ?_
  rintro ⟨⟨id⟩, ⟨kind⟩, name, location, portCount, capability⟩
    ⟨⟨id'⟩, ⟨kind'⟩, name', location', portCount', capability'⟩ h
  simp_all [Write.content]

theorem delimited_fencedSession : Delimited (2 ^ 32) fun v : SnapshotFencedSession =>
    wire [.id128 v.source.value, .u64 v.incarnation, .u64 v.fencedBy, .u64 v.claims] := by
  refine (tells_fields fun _ _ => rfl).delimited ?_
  rintro ⟨⟨source⟩, incarnation, fencedBy, claims⟩ ⟨⟨source'⟩, incarnation', fencedBy', claims'⟩ h
  simp_all [Write.content]

theorem delimited_fencedObject : Delimited (2 ^ 32) fun v : SnapshotFencedObject =>
    wire [.id128 v.object.value, .u64 v.currentIncarnation, .u64 v.fencedClaims] := by
  refine (tells_fields fun _ _ => rfl).delimited ?_
  rintro ⟨⟨object⟩, incarnation, claims⟩ ⟨⟨object'⟩, incarnation', claims'⟩ h
  simp_all [Write.content]

/-- **Snapshots whose fields are written as the same bytes are the same snapshot**, but for the
identity of the registry where it is not written. -/
theorem snapshotFields_injective {includeRegistry : Bool} {v v' : TopologySnapshot}
    (hv : (wire (snapshotFields includeRegistry limits v)).length < 2 ^ 32)
    (hv' : (wire (snapshotFields includeRegistry limits v')).length < 2 ^ 32)
    (h : wire (snapshotFields includeRegistry limits v) =
      wire (snapshotFields includeRegistry limits v')) :
    (includeRegistry = true → v.registry = v'.registry) ∧ { v with registry := v'.registry } = v' := by
  have hobjects := delimited_list (fun _ => List.cons_ne_nil _ _) (@delimited_object limits)
  have hendpoints := delimited_list (fun _ => List.cons_ne_nil _ _) (@delimited_endpoint limits)
  have hports := delimited_list (fun _ => List.cons_ne_nil _ _) delimited_port
  have hsessions := delimited_list (fun _ => List.cons_ne_nil _ _) delimited_fencedSession
  have hfenced := delimited_list (fun _ => List.cons_ne_nil _ _) delimited_fencedObject
  have htells := tells_append (tells_append (tells_append (tells_append (tells_append
    (@tells_fields TopologySnapshot (fun v => [.u32 v.formatVersion] ++
      (if includeRegistry then [.id128 v.registry.value] else []) ++
      [.bytes v.provenanceDigest.toList] ++ encodeSummary v.summary)
      fun _ _ => by cases includeRegistry <;> rfl)
    (hobjects.tells TopologySnapshot.objects)) (hendpoints.tells TopologySnapshot.endpoints))
    (hports.tells TopologySnapshot.ports)) (hsessions.tells TopologySnapshot.fencedSessions))
    (hfenced.tells TopologySnapshot.fencedObjects)
  obtain ⟨htold, -⟩ := htells v v' [] [] hv hv' (congrArg (· ++ []) h)
  clear hobjects hendpoints hports hsessions hfenced htells h hv hv'
  obtain ⟨format, ⟨registry⟩, ⟨⟩, objects, endpoints, ports, sessions, fenced, digest⟩ := v
  obtain ⟨format', ⟨registry'⟩, ⟨⟩, objects', endpoints', ports', sessions', fenced', digest'⟩ := v'
  cases includeRegistry <;> simp_all [encodeSummary, Write.content, Vector.toList_inj]

end CableRegistry
