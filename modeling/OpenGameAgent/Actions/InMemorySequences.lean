import OpenGameAgent.Actions.InMemoryLedger

/-!
# The order of an in-memory journal

The records of a journal stand in the order they were admitted in: a new record goes behind all
others, and the rest keep their order when one is removed.
-/

namespace OpenGameAgent

namespace InMemoryActionJournal

variable {journal : InMemoryActionJournal} {record : ActionRecord}

theorem keys_put_fresh (h : record.key ∉ journal.records.keys) :
    (journal.put record).records.keys = journal.records.keys ++ [record.key] := by
  show (journal.records.set record.key record).keys = _
  rw [OrderedMap.keys_set, if_neg h]

theorem keys_remove :
    (journal.remove record).records.keys =
      journal.records.keys.filter fun key => key ≠ record.key := by
  show (journal.records.delete record.key).keys = _
  unfold OrderedMap.keys OrderedMap.delete OrderedMap.filterKeys
  rw [List.filter_map]
  rfl

/-- The journal once `ensure` has written a new record. -/
def admitRecord (journal : InMemoryActionJournal) (record : ActionRecord) :
    InMemoryActionJournal :=
  { journal.put record with
    nextSequence := journal.nextSequence + 1
    sequences := journal.sequences.set record.key (journal.nextSequence + 1) }

end InMemoryActionJournal

end OpenGameAgent
