import CableRegistry.Lib.Sorting
import CableRegistry.Snapshot

/-!
# The orders of a snapshot

`canonicalise` sorts every collection of a snapshot by a comparison of its own.  Each of them is a
lexicographic order on some keys, which is named here; the claims of an attachment are ordered by
all that identifies them, but the attachments of an object only by port and slot, and those of a
port only by subject and slot.

Sorting what is sorted changes nothing (`canonicalise_canonicalise`).
-/

open Std

namespace CableRegistry

/-! ### The keys -/

namespace SnapshotClaim

def order : SnapshotClaim → SnapshotClaim → Ordering :=
  compareLex (compareOn source) (compareLex (compareOn incarnation)
    (compareLex (compareOn generation) (compareOn evidence)))

instance : TransCmp order := inferInstanceAs (TransCmp (compareLex _ _))

end SnapshotClaim

theorem claimLess_eq (a b : SnapshotClaim) : claimLess a b = (SnapshotClaim.order a b == .lt) := by
  unfold claimLess
  rw [decide_lt_eq a.incarnation, decide_lt_eq a.generation, lexLess_eq a.generation,
    lexLess_eq a.incarnation, lexLess_eq a.source]
  rfl

namespace SnapshotAttachment

/-- How the attachments of an object are ordered. -/
def orderInObject : SnapshotAttachment → SnapshotAttachment → Ordering :=
  compareLex (compareOn port) (compareOn slot)

/-- How the attachments of a port are ordered. -/
def orderInPort : SnapshotAttachment → SnapshotAttachment → Ordering :=
  compareLex (compareOn subject) (compareOn slot)

instance : TransCmp orderInObject := inferInstanceAs (TransCmp (compareLex _ _))
instance : TransCmp orderInPort := inferInstanceAs (TransCmp (compareLex _ _))

end SnapshotAttachment

/-- The comparison of the attachments of an object. -/
def lessInObject (left right : SnapshotAttachment) : Bool :=
  if left.port ≠ right.port then portLess left.port right.port else left.slot < right.slot

/-- The comparison of the attachments of a port. -/
def lessInPort (left right : SnapshotAttachment) : Bool :=
  if left.subject ≠ right.subject then subjectLess left.subject right.subject
  else left.slot < right.slot

theorem lessInObject_eq (a b : SnapshotAttachment) :
    lessInObject a b = (SnapshotAttachment.orderInObject a b == .lt) := by
  unfold lessInObject portLess
  rw [decide_lt_eq a.slot, lexLess_eq a.port]
  rfl

theorem lessInPort_eq (a b : SnapshotAttachment) :
    lessInPort a b = (SnapshotAttachment.orderInPort a b == .lt) := by
  unfold lessInPort subjectLess
  rw [decide_lt_eq a.slot, lexLess_eq a.subject]
  rfl

namespace SnapshotConflict

def order : SnapshotConflict → SnapshotConflict → Ordering :=
  compareLex (compareOn fun c => c.reason.raw) (compareLex (compareOn subject) (compareOn port))

instance : TransCmp order := inferInstanceAs (TransCmp (compareLex _ _))

end SnapshotConflict

theorem ConflictReason.raw_injective {a b : ConflictReason} (h : a.raw = b.raw) : a = b := by
  cases a <;> cases b <;> first | rfl | exact absurd h (by decide)

theorem conflictLess_eq (a b : SnapshotConflict) :
    conflictLess a b = (SnapshotConflict.order a b == .lt) := by
  have hreason : (a.reason ≠ b.reason) = (a.reason.raw ≠ b.reason.raw) := by
    refine propext (not_congr ⟨congrArg _, ConflictReason.raw_injective⟩)
  unfold conflictLess subjectLess portLess
  rw [decide_lt_eq a.reason.raw, lexLess_eq a.subject]
  simp only [hreason]
  rw [lexLess_eq a.reason.raw]
  rfl

namespace SnapshotFencedSession

def order : SnapshotFencedSession → SnapshotFencedSession → Ordering :=
  compareLex (compareOn source) (compareOn incarnation)

instance : TransCmp order := inferInstanceAs (TransCmp (compareLex _ _))

/-- The comparison of fenced sessions. -/
def less (left right : SnapshotFencedSession) : Bool :=
  if left.source ≠ right.source then compare left.source right.source == .lt
  else left.incarnation < right.incarnation

theorem less_eq (a b : SnapshotFencedSession) : less a b = (order a b == .lt) := by
  unfold less
  rw [decide_lt_eq a.incarnation, lexLess_eq a.source]
  rfl

end SnapshotFencedSession

/-! ### Sorting twice -/

/-- The claims of a conflict in their order. -/
def sortConflictClaims (conflict : SnapshotConflict) : SnapshotConflict :=
  { conflict with claims := sortBy claimLess conflict.claims }

theorem sortAttachmentClaims_idem (a : SnapshotAttachment) :
    sortAttachmentClaims (sortAttachmentClaims a) = sortAttachmentClaims a := by
  unfold sortAttachmentClaims
  rw [sortBy_sortBy claimLess_eq]

theorem sortConflictClaims_idem (c : SnapshotConflict) :
    sortConflictClaims (sortConflictClaims c) = sortConflictClaims c := by
  unfold sortConflictClaims
  rw [sortBy_sortBy claimLess_eq]

theorem canonicaliseObject_eq (object : SnapshotObject) :
    canonicaliseObject object =
      { object with attachments := (sortBy lessInObject object.attachments).map sortAttachmentClaims } :=
  rfl

theorem canonicalisePort_eq (port : SnapshotPort) :
    canonicalisePort port =
      { port with
        attachments := (sortBy lessInPort port.attachments).map sortAttachmentClaims
        conflicts := (sortBy conflictLess port.conflicts).map sortConflictClaims } :=
  rfl

theorem canonicaliseObject_idem (object : SnapshotObject) :
    canonicaliseObject (canonicaliseObject object) = canonicaliseObject object := by
  rw [canonicaliseObject_eq, canonicaliseObject_eq]
  dsimp only
  rw [sortBy_map_sortBy_map lessInObject_eq sortAttachmentClaims (fun _ _ => rfl)
    sortAttachmentClaims_idem]

theorem canonicalisePort_idem (port : SnapshotPort) :
    canonicalisePort (canonicalisePort port) = canonicalisePort port := by
  rw [canonicalisePort_eq, canonicalisePort_eq]
  dsimp only
  rw [sortBy_map_sortBy_map lessInPort_eq sortAttachmentClaims (fun _ _ => rfl)
      sortAttachmentClaims_idem,
    sortBy_map_sortBy_map conflictLess_eq sortConflictClaims (fun _ _ => rfl) sortConflictClaims_idem]

/-- The comparison of entries by one key. -/
def lessBy {α κ : Type} [Ord κ] (key : α → κ) (left right : α) : Bool :=
  compare (key left) (key right) == .lt

theorem lessBy_eq {α κ : Type} [Ord κ] (key : α → κ) (a b : α) :
    lessBy key a b = (compareOn key a b == .lt) := rfl

theorem canonicalise_eq (snapshot : TopologySnapshot) :
    canonicalise snapshot =
      { snapshot with
        objects := (sortBy (lessBy SnapshotObject.id) snapshot.objects).map canonicaliseObject
        endpoints := sortBy (lessBy SnapshotEndpoint.id) snapshot.endpoints
        ports := (sortBy (lessBy SnapshotPort.port) snapshot.ports).map canonicalisePort
        fencedSessions := sortBy SnapshotFencedSession.less snapshot.fencedSessions
        fencedObjects := sortBy (lessBy SnapshotFencedObject.object) snapshot.fencedObjects } :=
  rfl

/-- **A canonical snapshot is in canonical form.** -/
theorem canonicalise_canonicalise (snapshot : TopologySnapshot) :
    canonicalise (canonicalise snapshot) = canonicalise snapshot := by
  rw [canonicalise_eq, canonicalise_eq]
  dsimp only
  rw [sortBy_map_sortBy_map (lessBy_eq SnapshotObject.id) canonicaliseObject (fun _ _ => rfl)
      canonicaliseObject_idem,
    sortBy_map_sortBy_map (lessBy_eq SnapshotPort.port) canonicalisePort (fun _ _ => rfl)
      canonicalisePort_idem,
    sortBy_sortBy (lessBy_eq SnapshotEndpoint.id), sortBy_sortBy SnapshotFencedSession.less_eq,
    sortBy_sortBy (lessBy_eq SnapshotFencedObject.object)]

end CableRegistry
