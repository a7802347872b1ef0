import Forge.Library.StateMachine
import Forge.SidecarWal

/-! The counter of the log, its bound, and the records that it keeps until they are published, over
runs of connections and drains side by side. -/

namespace Forge.WalAccounting

open Forge.Library.CountedStore
open Forge.Library.StateMachine
open Forge.SidecarWal

def account (world : World) : Account where
  stored := world.wal.files.length
  counter := world.wal.pending
  taken := world.connections.countP Stage.admits
  arriving := world.connections.countP Stage.arrives
  leaving := world.connections.countP Stage.leaves + world.drain.leaves.toNat

/-- Neither `append` nor `acknowledge` is in progress. -/
def Quiet (world : World) : Prop :=
  (∀ stage ∈ world.connections, (stage.admits || stage.arrives || stage.leaves) = false) ∧
    world.drain.leaves = false

def Held (world : World) (nanos : Int) : Prop :=
  (∃ stage ∈ world.connections, stage.name? = some nanos) ∨
    ∃ entry ∈ world.drain.entries, entry.nanos = nanos

/-- The start of a process: the counter is the number of the files that the last one left. -/
structure Starts (world : World) : Prop where
  unique : ∀ file ∈ world.wal.files, ∀ other ∈ world.wal.files,
    file.nanos = other.nanos → file = other
  counted : world.wal.pending = world.wal.files.length
  fits : world.wal.files.length ≤ world.wal.maxPending
  connections : world.connections = []
  drain : world.drain = .resting
  returned : world.returned = []

/-- A check that finds room finds enough of it for the other appends too; a published file counts
as appended, under a name that nobody is about to remove; no decrement finds zero; the scan of a
new process succeeds. -/
def Guarded (world : World) : Action → Prop
  | .connection _ .check =>
      world.wal.full = false → (account world).Room world.wal.maxPending
  | .connection _ (.write nanos move) => move ≠ .unsynced ∧ ¬Held world nanos
  | .connection _ .discount | .drain .discount => 0 < world.wal.pending
  | .restart scanned => scanned = true
  | _ => True

/-- At rest the counter is the number of files; the bound holds; and a file whose append returned
is there until its event was published. -/
structure Accounted (world : World) : Prop where
  counted : Quiet world → world.wal.pending = world.wal.files.length
  bounded : world.wal.files.length ≤ world.wal.maxPending
  kept : ∀ i ∈ world.returned,
    (∃ file ∈ world.wal.files, file.writer = some i) ∨ i ∈ world.delivered

def Published (world : World) (i : Nat) : Prop :=
  i ∈ world.returned ∨ ∃ nanos, world.connections[i]? = some (.linked nanos)

/-- A file under a name that a connection or the drain holds is the one that it wrote or read, and
what is removed next was published. -/
structure Kept (world : World) : Prop where
  unique : ∀ file ∈ world.wal.files, ∀ other ∈ world.wal.files,
    file.nanos = other.nanos → file = other
  own : ∀ i stage nanos, world.connections[i]? = some stage → stage.name? = some nanos →
    ∀ file ∈ world.wal.files, file.nanos = nanos → file.writer = some i
  entries : ∀ entry ∈ world.drain.entries, ∀ file ∈ world.wal.files,
    file.nanos = entry.nanos → file.writer = entry.writer
  confirmed : ∀ i nanos, world.connections[i]? = some (.confirmed nanos) → i ∈ world.delivered
  drained : ∀ entry rest, world.drain = .confirmed entry rest →
    ∀ i, entry.writer = some i → i ∈ world.delivered
  stored : ∀ i, Published world i →
    (∃ file ∈ world.wal.files, file.writer = some i) ∨ i ∈ world.delivered

section Names

variable {world : World} {i : Nat} {old : Stage}

theorem Kept.setStage (kept : Kept world) (new : Stage) (hold : world.connections[i]? = some old)
    (hname : new.name? = none ∨ new.name? = old.name?)
    (hconfirmed : ∀ nanos, new = .confirmed nanos → i ∈ world.delivered)
    (hlinked : new.arrives = false) : Kept (world.setStage i new) where
  unique := kept.unique
  own j stage nanos hstage hheld := by
    simp only [World.setStage, List.getElem?_set] at hstage
    split_ifs at hstage with hsame
    · subst hsame
      obtain rfl := Option.some.inj hstage
      rcases hname with hnone | heq
      · rw [hnone] at hheld
        exact absurd hheld nofun
      · rw [heq] at hheld
        exact kept.own i old nanos hold hheld
    · exact kept.own j stage nanos hstage hheld
  entries := kept.entries
  confirmed j nanos hstage := by
    simp only [World.setStage, List.getElem?_set] at hstage
    split_ifs at hstage with hsame
    · subst hsame
      exact hconfirmed nanos (Option.some.inj hstage)
    · exact kept.confirmed j nanos hstage
  drained := kept.drained
  stored j hpublished := by
    apply kept.stored j
    rcases hpublished with hreturned | ⟨nanos, hstage⟩
    · exact .inl hreturned
    · simp only [World.setStage, List.getElem?_set] at hstage
      split_ifs at hstage with hsame
      · rw [Option.some.inj hstage] at hlinked
        exact absurd hlinked nofun
      · exact .inr ⟨nanos, hstage⟩

theorem Kept.setWal {wal : Wal} (kept : Kept world) (hfiles : wal.files = world.wal.files) :
    Kept (world.setWal wal) where
  unique := by rw [World.setWal, hfiles]; exact kept.unique
  own := by rw [World.setWal, hfiles]; exact kept.own
  entries := by rw [World.setWal, hfiles]; exact kept.entries
  confirmed := kept.confirmed
  drained := kept.drained
  stored := by rw [World.setWal, hfiles]; exact kept.stored

theorem Kept.removeFile {nanos : Int} (kept : Kept world)
    (hdelivered : ∀ file ∈ world.wal.files, file.nanos = nanos →
      ∀ i, file.writer = some i → i ∈ world.delivered) :
    Kept (world.setWal (world.wal.removeFile nanos)) where
  unique file hfile other hother :=
    kept.unique file (List.mem_of_mem_eraseP hfile) other (List.mem_of_mem_eraseP hother)
  own j stage name hstage hheld file hfile :=
    kept.own j stage name hstage hheld file (List.mem_of_mem_eraseP hfile)
  entries entry hentry file hfile :=
    kept.entries entry hentry file (List.mem_of_mem_eraseP hfile)
  confirmed := kept.confirmed
  drained := kept.drained
  stored j hpublished := by
    rcases kept.stored j hpublished with ⟨file, hfile, hwriter⟩ | hdone
    · by_cases hname : file.nanos = nanos
      · exact .inr (hdelivered file hfile hname j hwriter)
      · refine .inl ⟨file, ?_, hwriter⟩
        exact (List.mem_eraseP_of_neg (by simpa using hname)).mpr hfile
    · exact .inr hdone

theorem Kept.deliver (kept : Kept world) (ids : List Nat) :
    Kept { world with delivered := ids ++ world.delivered } where
  unique := kept.unique
  own := kept.own
  entries := kept.entries
  confirmed j nanos hstage := List.mem_append_right _ (kept.confirmed j nanos hstage)
  drained entry rest hdrain j hwriter :=
    List.mem_append_right _ (kept.drained entry rest hdrain j hwriter)
  stored j hpublished := (kept.stored j hpublished).imp_right (List.mem_append_right _)

/-- The return of an `append` whose file is published. -/
theorem Kept.return (kept : Kept world) (hpublished : Published world i) :
    Kept { world with returned := i :: world.returned } where
  unique := kept.unique
  own := kept.own
  entries := kept.entries
  confirmed := kept.confirmed
  drained := kept.drained
  stored j := by
    rintro (hreturned | hlinked)
    · rcases List.mem_cons.mp hreturned with rfl | hbefore
      · exact kept.stored j hpublished
      · exact kept.stored j (.inl hbefore)
    · exact kept.stored j (.inr hlinked)

theorem Kept.setDrain {drain : Drain} (kept : Kept world)
    (hentries : ∀ entry ∈ drain.entries,
      entry ∈ world.drain.entries ∨ entry ∈ world.wal.files)
    (hdrained : ∀ entry rest, drain = .confirmed entry rest →
      ∀ i, entry.writer = some i → i ∈ world.delivered) : Kept (world.setDrain drain) where
  unique := kept.unique
  own := kept.own
  entries entry hentry file hfile hname := by
    rcases hentries entry hentry with hbefore | hread
    · exact kept.entries entry hbefore file hfile hname
    · rw [kept.unique file hfile entry hread hname]
  confirmed := kept.confirmed
  drained := hdrained
  stored := kept.stored

theorem holds_iff {wal : Wal} {nanos : Int} :
    wal.holds nanos = true ↔ ∃ file ∈ wal.files, file.nanos = nanos := by
  simp [Wal.holds]

theorem Kept.publishFile {nanos : Int} {data : List UInt8} (kept : Kept world)
    (hold : world.connections[i]? = some (.admitted data)) (hfree : ¬Held world nanos)
    (habsent : world.wal.holds nanos = false) :
    Kept ((world.setStage i (.linked nanos)).setWal
      { world.wal with files := world.wal.files ++ [⟨nanos, data, some i⟩] }) := by
  have hnew : ∀ file ∈ world.wal.files, file.nanos ≠ nanos := by
    intro file hfile hname
    have hheld := holds_iff.mpr ⟨file, hfile, hname⟩
    rw [habsent] at hheld
    exact absurd hheld nofun
  have hlength : i < world.connections.length := by
    rw [List.getElem?_eq_some_iff] at hold
    exact hold.1
  constructor
  case unique =>
    intro file hfile other hother hname
    simp only [World.setWal, List.mem_append, List.mem_singleton] at hfile hother
    rcases hfile with hfile | rfl <;> rcases hother with hother | rfl
    · exact kept.unique file hfile other hother hname
    · exact absurd hname (hnew file hfile)
    · exact absurd hname.symm (hnew other hother)
    · rfl
  case own =>
    intro j stage name hstage hheld file hfile hname
    simp only [World.setWal, World.setStage, List.getElem?_set] at hstage
    simp only [World.setWal, List.mem_append, List.mem_singleton] at hfile
    split_ifs at hstage with hsame
    · subst hsame
      obtain rfl := Option.some.inj hstage
      obtain rfl := Option.some.inj hheld
      rcases hfile with hfile | rfl
      · exact absurd hname (hnew file hfile)
      · rfl
    · rcases hfile with hfile | rfl
      · exact kept.own j stage name hstage hheld file hfile hname
      · subst hname
        exact absurd (.inl ⟨stage, List.mem_of_getElem? hstage, hheld⟩) hfree
  case entries =>
    intro entry hentry file hfile hname
    simp only [World.setWal, List.mem_append, List.mem_singleton] at hfile
    rcases hfile with hfile | rfl
    · exact kept.entries entry hentry file hfile hname
    · exact absurd (.inr ⟨entry, hentry, hname.symm⟩) hfree
  case confirmed =>
    intro j name hstage
    simp only [World.setWal, World.setStage, List.getElem?_set] at hstage
    split_ifs at hstage with hsame
    · exact absurd hstage nofun
    · exact kept.confirmed j name hstage
  case drained => exact kept.drained
  case stored =>
    intro j hpublished
    by_cases hsame : j = i
    · exact .inl ⟨⟨nanos, data, some i⟩, by simp [World.setWal], by rw [hsame]⟩
    · have hbefore : Published world j := by
        rcases hpublished with hreturned | ⟨name, hstage⟩
        · exact .inl hreturned
        · simp only [World.setWal, World.setStage,
            List.getElem?_set_ne (Ne.symm hsame)] at hstage
          exact .inr ⟨name, hstage⟩
      refine (kept.stored j hbefore).imp_left ?_
      rintro ⟨file, hfile, hwriter⟩
      exact ⟨file, List.mem_append_left _ hfile, hwriter⟩

theorem Kept.accept {data : List UInt8} (kept : Kept world) :
    Kept { world with connections := world.connections ++ [.accepted data] } := by
  have hbefore : ∀ {j : Nat} {stage : Stage},
      (world.connections ++ [Stage.accepted data])[j]? = some stage →
      stage ≠ Stage.accepted data → world.connections[j]? = some stage := by
    intro j stage hstage hother
    rw [List.getElem?_append] at hstage
    split_ifs at hstage with hlength
    · exact hstage
    · have hmem := List.mem_of_getElem? hstage
      exact absurd (List.mem_singleton.mp hmem) hother
  constructor
  case unique => exact kept.unique
  case own =>
    intro j stage name hstage hheld
    refine kept.own j stage name (hbefore hstage ?_) hheld
    rintro rfl
    exact absurd hheld nofun
  case entries => exact kept.entries
  case confirmed => exact fun j name hstage => kept.confirmed j name (hbefore hstage nofun)
  case drained => exact kept.drained
  case stored =>
    intro j hpublished
    apply kept.stored j
    rcases hpublished with hreturned | ⟨name, hstage⟩
    · exact .inl hreturned
    · exact .inr ⟨name, hbefore hstage nofun⟩

theorem Kept.restart (kept : Kept world) (scanned : Bool) : Kept (world.restart scanned) := by
  have hover : ∀ {j : Nat} {stage : Stage}, (world.restart scanned).connections[j]? = some stage →
      stage = Stage.concluded := by
    intro j stage hstage
    obtain ⟨before, -, rfl⟩ := List.mem_map.mp (List.mem_of_getElem? hstage)
    rfl
  constructor
  case unique => exact kept.unique
  case own =>
    intro j stage name hstage hheld
    rw [hover hstage] at hheld
    exact absurd hheld nofun
  case entries => exact nofun
  case confirmed => exact fun j name hstage => absurd (hover hstage) nofun
  case drained => exact nofun
  case stored =>
    rintro j (hreturned | ⟨name, hstage⟩)
    · exact kept.stored j (.inl hreturned)
    · exact absurd (hover hstage) nofun

end Names

section Steps

variable {world : World}

theorem kept_advance (kept : Kept world) {i : Nat} {stage : Stage} {input : Input}
    (hstage : world.connections[i]? = some stage)
    (guarded : Guarded world (.connection i input)) : Kept (world.advance i stage input) := by
  unfold World.advance
  split
  case h_1 data =>
      split_ifs with hfull
      · exact (kept.setStage .concluded hstage (.inl rfl) nofun rfl).setWal rfl
      · exact kept.setStage (.admitted data) hstage (.inl rfl) nofun rfl
  case h_2 data nanos move =>
      obtain ⟨hsynced, hfree⟩ := guarded
      cases habsent : world.wal.holds nanos with
      | true =>
          simp only [Wal.publishes, Wal.publishFile, habsent, Bool.not_true, Bool.and_false,
            Bool.or_true, if_true, Bool.false_eq_true, if_false]
          exact (kept.setStage .concluded hstage (.inl rfl) nofun rfl).setWal rfl
      | false =>
          cases move with
          | unsynced => exact absurd rfl hsynced
          | failed => exact (kept.setStage .concluded hstage (.inl rfl) nofun rfl).setWal rfl
          | linked =>
              have hpublished := kept.publishFile hstage hfree habsent
              simpa [Wal.publishes, Wal.publishFile, habsent] using hpublished
  case h_3 nanos =>
      have hreturned := @Kept.setWal _ world.wal.countAppended
        (kept.return (.inr ⟨nanos, hstage⟩)) rfl
      exact hreturned.setStage (.appended nanos) hstage (.inr rfl) nofun rfl
  case h_4 nanos confirmed =>
      split_ifs
      · have hdelivered := kept.deliver [i]
        exact hdelivered.setStage (.confirmed nanos) hstage (.inr rfl) (fun _ _ => List.mem_cons_self) rfl
      · exact kept.setStage .concluded hstage (.inl rfl) nofun rfl
  case h_5 nanos executed =>
      split_ifs
      · have hremoved : Kept (world.setWal (world.wal.removeFile nanos)) := by
          apply kept.removeFile
          intro file hfile hname j hwriter
          rw [kept.own i _ nanos hstage rfl file hfile hname, Option.some.injEq] at hwriter
          subst hwriter
          exact kept.confirmed i nanos hstage
        exact hremoved.setStage .removed hstage (.inl rfl) nofun rfl
      · exact kept.setStage .concluded hstage (.inl rfl) nofun rfl
  case h_6 => exact (kept.setStage .concluded hstage (.inl rfl) nofun rfl).setWal rfl
  case h_7 => exact kept

theorem kept_drainStep (kept : Kept world) (input : DrainInput) :
    Kept (world.drainStep world.drain input) := by
  have hkeeps : ∀ entries, (∀ entry ∈ entries, entry ∈ world.drain.entries) →
      Kept (world.setDrain (.publishing entries)) :=
    fun entries hmem => kept.setDrain (fun entry hentry => .inl (hmem entry hentry)) nofun
  have hrests : Kept (world.setDrain .resting) := kept.setDrain nofun nofun
  unfold World.drainStep
  split
  case h_1 now hdrain => exact kept.setDrain nofun nofun
  case h_2 cutoff names entries executed hdrain =>
      cases names with
      | nil =>
          apply hkeeps
          intro entry hentry
          rw [hdrain]
          exact List.mem_of_mem_filter hentry
      | cons name rest =>
          simp only
          split
          case h_1 file hfile =>
              split_ifs
              · refine kept.setDrain ?_ nofun
                intro entry hentry
                rcases List.mem_append.mp hentry with hbefore | hread
                · rw [hdrain]
                  exact .inl hbefore
                · rw [List.mem_singleton.mp hread]
                  exact .inr (List.mem_of_find?_eq_some hfile)
              · exact hrests
          case h_2 => exact hrests
  case h_3 => exact hrests
  case h_4 entry entries confirmed hdrain =>
      split_ifs
      · have hdelivered := kept.deliver entry.writer.toList
        refine hdelivered.setDrain ?_ ?_
        · intro other hother
          left
          rw [hdrain]
          exact hother
        · rintro other rest heq j hwriter
          obtain ⟨rfl, -⟩ := Drain.confirmed.inj heq
          exact List.mem_append_left _ (by simp [hwriter])
      · apply hkeeps
        intro other hother
        rw [hdrain]
        exact List.mem_cons_of_mem entry hother
  case h_5 entry entries executed hdrain =>
      have hbelow : ∀ other ∈ entries, other ∈ world.drain.entries := by
        intro other hother
        rw [hdrain]
        exact List.mem_cons_of_mem entry hother
      split_ifs
      · have hremoved : Kept (world.setWal (world.wal.removeFile entry.nanos)) := by
          apply kept.removeFile
          intro file hfile hname j hwriter
          have hread : entry ∈ world.drain.entries := by
            rw [hdrain]
            exact List.mem_cons_self
          rw [kept.entries entry hread file hfile hname] at hwriter
          exact kept.drained entry entries hdrain j hwriter
        exact hremoved.setDrain (fun other hother => .inl (hbelow other hother)) nofun
      · exact hkeeps entries hbelow
  case h_6 entries hdrain =>
      refine (hkeeps entries ?_).setWal rfl
      intro entry hentry
      rw [hdrain]
      exact hentry
  case h_7 => exact kept

theorem kept_exec (kept : Kept world) {action : Action} (guarded : Guarded world action) :
    Kept (world.exec action) := by
  cases action with
  | accept data => exact kept.accept
  | connection i input =>
      cases hstage : world.connections[i]? with
      | none =>
          simp only [World.exec, hstage]
          exact kept
      | some stage =>
          simp only [World.exec, hstage]
          exact kept_advance kept hstage guarded
  | drain input => exact kept_drainStep kept input
  | restart scanned => exact kept.restart scanned

end Steps

section Accounts

variable {world : World}

theorem account_setStage {i : Nat} {old : Stage} (hold : world.connections[i]? = some old)
    (new : Stage) :
    account (world.setStage i new) =
      { account world with
        taken := (account world).taken + new.admits.toNat - old.admits.toNat
        arriving := (account world).arriving + new.arrives.toNat - old.arrives.toNat
        leaving := (account world).leaving + new.leaves.toNat - old.leaves.toNat } := by
  have hadmits := countP_set (p := Stage.admits) hold new
  have harrives := countP_set (p := Stage.arrives) hold new
  have hleaves := countP_set (p := Stage.leaves) hold new
  simp only [account, World.setStage, Account.mk.injEq, true_and]
  omega

theorem account_setWal (wal : Wal) :
    account (world.setWal wal) =
      { account world with stored := wal.files.length, counter := wal.pending } := rfl

theorem taken_pos {i : Nat} {old : Stage} (hold : world.connections[i]? = some old)
    (hadmits : old.admits = true) : 0 < (account world).taken := by
  have hle := toNat_le_countP (p := Stage.admits) hold
  rw [hadmits] at hle
  exact hle

theorem arriving_pos {i : Nat} {old : Stage} (hold : world.connections[i]? = some old)
    (harrives : old.arrives = true) : 0 < (account world).arriving := by
  have hle := toNat_le_countP (p := Stage.arrives) hold
  rw [harrives] at hle
  exact hle

theorem leaving_pos {i : Nat} {old : Stage} (hold : world.connections[i]? = some old)
    (hleaves : old.leaves = true) : 0 < (account world).leaving := by
  have hle := toNat_le_countP (p := Stage.leaves) hold
  rw [hleaves] at hle
  exact Nat.lt_add_right _ hle

theorem length_removeFile {wal : Wal} {nanos : Int} (hheld : wal.holds nanos = true) :
    0 < wal.files.length ∧ (wal.removeFile nanos).files.length = wal.files.length - 1 := by
  obtain ⟨file, hfile, hname⟩ := holds_iff.mp hheld
  refine ⟨List.length_pos_of_mem hfile, ?_⟩
  exact List.length_eraseP_of_mem hfile (by simpa using hname)

theorem account_advance {i : Nat} {stage : Stage} {input : Input}
    (hstage : world.connections[i]? = some stage)
    (guarded : Guarded world (.connection i input)) :
    ∃ move, (account world).Due move ∧
      (move = .take → (account world).Room world.wal.maxPending) ∧
      account (world.advance i stage input) = (account world).next move := by
  have hset := account_setStage hstage
  unfold World.advance
  split
  case h_1 data =>
      split_ifs with hfull
      · exact ⟨.stay, trivial, nofun, hset .concluded⟩
      · rw [Bool.not_eq_true] at hfull
        exact ⟨.take, trivial, fun _ => guarded hfull, hset (.admitted data)⟩
  case h_2 data nanos move =>
      have htaken := taken_pos hstage rfl
      cases habsent : world.wal.holds nanos with
      | true =>
          refine ⟨.release, htaken, nofun, ?_⟩
          simp only [Wal.publishes, Wal.publishFile, habsent, Bool.not_true, Bool.and_false,
            Bool.or_true, if_true, Bool.false_eq_true, if_false]
          exact hset .concluded
      | false =>
          cases move with
          | unsynced => exact absurd rfl guarded.1
          | failed => exact ⟨.release, htaken, nofun, hset .concluded⟩
          | linked =>
              refine ⟨.store, htaken, nofun, ?_⟩
              have hfiles : world.wal.publishFile ⟨nanos, data, some i⟩ .linked =
                  { world.wal with files := world.wal.files ++ [⟨nanos, data, some i⟩] } := by
                simp [Wal.publishFile, habsent]
              have hlinks : world.wal.publishes ⟨nanos, data, some i⟩ .linked = true := by
                simp [Wal.publishes, habsent]
              simp only [hlinks, hfiles, if_true, account_setWal, hset, List.length_append]
              rfl
  case h_3 nanos =>
      refine ⟨.count, arriving_pos hstage rfl, nofun, ?_⟩
      exact congrArg (fun after : Account => { after with counter := world.wal.pending + 1 })
        (hset (.appended nanos))
  case h_4 nanos confirmed =>
      split_ifs
      · exact ⟨.stay, trivial, nofun, hset (.confirmed nanos)⟩
      · exact ⟨.stay, trivial, nofun, hset .concluded⟩
  case h_5 nanos executed =>
      split_ifs with hremoves
      · rw [Bool.and_eq_true] at hremoves
        obtain ⟨hpositive, hlength⟩ := length_removeFile hremoves.2
        refine ⟨.remove, hpositive, nofun, ?_⟩
        rw [account_setWal, hset, hlength]
        rfl
      · exact ⟨.stay, trivial, nofun, hset .concluded⟩
  case h_6 =>
      refine ⟨.discount, ⟨leaving_pos hstage rfl, guarded⟩, nofun, ?_⟩
      rw [account_setWal, hset]
      rfl
  case h_7 => exact ⟨.stay, trivial, nofun, rfl⟩

theorem account_setDrain (drain : Drain) (hleaves : drain.leaves = world.drain.leaves) :
    account (world.setDrain drain) = account world := by
  simp only [account, World.setDrain, hleaves]

theorem account_drainStep {input : DrainInput} (guarded : Guarded world (.drain input)) :
    ∃ move, (account world).Due move ∧
      (move = .take → (account world).Room world.wal.maxPending) ∧
      account (world.drainStep world.drain input) = (account world).next move := by
  have hstays : ∀ drain : Drain, drain.leaves = world.drain.leaves →
      ∃ move, (account world).Due move ∧
        (move = .take → (account world).Room world.wal.maxPending) ∧
        account (world.setDrain drain) = (account world).next move :=
    fun drain hleaves => ⟨.stay, trivial, by rintro ⟨⟩, account_setDrain drain hleaves⟩
  unfold World.drainStep
  split
  case h_1 now hdrain => exact hstays _ (by rw [hdrain]; rfl)
  case h_2 cutoff names entries executed hdrain =>
      cases names with
      | nil => exact hstays _ (by rw [hdrain]; rfl)
      | cons name rest =>
          simp only
          split
          · split_ifs
            · exact hstays _ (by rw [hdrain]; rfl)
            · exact hstays _ (by rw [hdrain]; rfl)
          · exact hstays _ (by rw [hdrain]; rfl)
  case h_3 hdrain => exact hstays _ (by rw [hdrain]; rfl)
  case h_4 entry entries confirmed hdrain =>
      split_ifs
      · exact hstays (.confirmed entry entries) (by rw [hdrain]; rfl)
      · exact hstays _ (by rw [hdrain]; rfl)
  case h_5 entry entries executed hdrain =>
      split_ifs with hremoves
      · rw [Bool.and_eq_true] at hremoves
        obtain ⟨hpositive, hlength⟩ := length_removeFile hremoves.2
        refine ⟨.remove, hpositive, by rintro ⟨⟩, ?_⟩
        rw [account_setWal, hlength]
        simp only [account, World.setDrain, hdrain, Account.next]
        rfl
      · exact hstays _ (by rw [hdrain]; rfl)
  case h_6 entries hdrain =>
      refine ⟨.discount, ⟨?_, guarded⟩, by rintro ⟨⟩, ?_⟩
      · simp only [account, hdrain, Drain.leaves, Bool.toNat_true]
        omega
      · simp only [account, World.setWal, World.setDrain, hdrain, Account.next]
        rfl
  case h_7 => exact ⟨.stay, trivial, by rintro ⟨⟩, rfl⟩

theorem account_accept {data : List UInt8} :
    account (world.exec (.accept data)) = account world := by
  have hnone : ∀ p : Stage → Bool, p (.accepted data) = false →
      (world.connections ++ [Stage.accepted data]).countP p = world.connections.countP p := by
    intro p hp
    rw [List.countP_append, List.countP_singleton, hp]
    rfl
  simp only [account, World.exec, hnone Stage.admits rfl, hnone Stage.arrives rfl,
    hnone Stage.leaves rfl]

theorem account_restart :
    account (world.restart true) =
      ⟨world.wal.files.length, world.wal.files.length, 0, 0, 0⟩ := by
  have hnone : ∀ p : Stage → Bool, p .concluded = false →
      (world.connections.map fun _ => Stage.concluded).countP p = 0 := by
    intro p hp
    rw [List.countP_map]
    simp [Function.comp_def, hp]
  simp only [account, World.restart, Wal.initPending, hnone Stage.admits rfl,
    hnone Stage.arrives rfl, hnone Stage.leaves rfl, if_true]
  rfl

theorem maxPending_publishFile {wal : Wal} {file : WalFile} {move : FileMove} :
    (wal.publishFile file move).maxPending = wal.maxPending := by
  unfold Wal.publishFile
  split_ifs <;> rfl

theorem maxPending_exec {action : Action} :
    (world.exec action).wal.maxPending = world.wal.maxPending := by
  cases action with
  | accept data => rfl
  | restart scanned => rfl
  | connection i input =>
      cases hstage : world.connections[i]? with
      | none => simp only [World.exec, hstage]
      | some stage =>
          simp only [World.exec, hstage]
          unfold World.advance
          split
          case h_1 => split_ifs <;> rfl
          case h_2 => exact maxPending_publishFile
          case h_3 => rfl
          case h_4 => split_ifs <;> rfl
          case h_5 => split_ifs <;> rfl
          case h_6 => rfl
          case h_7 => rfl
  | drain input =>
      simp only [World.exec]
      unfold World.drainStep
      split
      case h_1 => rfl
      case h_2 names _ _ _ =>
          cases names with
          | nil => rfl
          | cons name rest =>
              simp only
              split
              · split_ifs <;> rfl
              · rfl
      case h_3 => rfl
      case h_4 => split_ifs <;> rfl
      case h_5 => split_ifs <;> rfl
      case h_6 => rfl
      case h_7 => rfl

end Accounts

section Runs

variable {world : World}

structure Inv (world : World) : Prop where
  kept : Kept world
  balanced : (account world).Balanced
  within : (account world).Within world.wal.maxPending

theorem inv_starts (starts : Starts world) : Inv world where
  kept :=
    { unique := starts.unique
      own := by simp [starts.connections]
      entries := by simp [starts.drain, Drain.entries]
      confirmed := by simp [starts.connections]
      drained := by simp [starts.drain]
      stored := by simp [Published, starts.returned, starts.connections] }
  balanced := by
    simp [Account.Balanced, account, starts.connections, starts.drain, starts.counted,
      Drain.leaves]
  within := by
    simpa [Account.Within, account, starts.connections] using starts.fits

theorem inv_of_move {after : World} (move : Move) (inv : Inv world) (kept : Kept after)
    (hmax : after.wal.maxPending = world.wal.maxPending) (due : (account world).Due move)
    (room : move = .take → (account world).Room world.wal.maxPending)
    (hmove : account after = (account world).next move) : Inv after where
  kept := kept
  balanced := by
    rw [hmove]
    exact inv.balanced.next due
  within := by
    rw [hmove, hmax]
    exact inv.within.next inv.balanced due room

theorem inv_exec {action : Action} (inv : Inv world) (guarded : Guarded world action) :
    Inv (world.exec action) := by
  have hkept := kept_exec inv.kept guarded
  cases action with
  | accept data => exact inv_of_move .stay inv hkept maxPending_exec trivial nofun account_accept
  | connection i input =>
      cases hstage : world.connections[i]? with
      | none =>
          simp only [World.exec, hstage]
          exact inv
      | some stage =>
          obtain ⟨move, due, room, hmove⟩ := account_advance hstage guarded
          refine inv_of_move move inv hkept maxPending_exec due room ?_
          simp only [World.exec, hstage]
          exact hmove
  | drain input =>
      obtain ⟨move, due, room, hmove⟩ := account_drainStep guarded
      exact inv_of_move move inv hkept maxPending_exec due room hmove
  | restart scanned =>
      obtain rfl : scanned = true := guarded
      have hafter : account (world.exec (.restart true)) = _ := account_restart
      refine ⟨hkept, ?_, ?_⟩
      · rw [hafter]
        rfl
      · rw [hafter, maxPending_exec]
        exact inv.within.stored_le

theorem accounted_of_inv (inv : Inv world) : Accounted world where
  counted := by
    rintro ⟨hstages, hdrain⟩
    refine inv.balanced.at_rest ?_ ?_
    · apply List.countP_eq_zero.mpr
      intro stage hmem
      have hquiet := hstages stage hmem
      simp only [Bool.or_eq_false_iff] at hquiet
      simp [hquiet.1.2]
    · have hnone : world.connections.countP Stage.leaves = 0 := by
        apply List.countP_eq_zero.mpr
        intro stage hmem
        have hquiet := hstages stage hmem
        simp only [Bool.or_eq_false_iff] at hquiet
        simp [hquiet.2]
      simp only [account, hnone, hdrain, Bool.toNat_false]
  bounded := inv.within.stored_le
  kept i hreturned := inv.kept.stored i (.inl hreturned)

/-- Runs of a guarded process account for their files. -/
theorem wal_accounted (reachable : Reachable World.exec Starts Guarded world) :
    Accounted world :=
  accounted_of_inv (reachable.invariant (fun _ => inv_starts) fun _ _ => inv_exec)

instance (world : World) (nanos : Int) : Decidable (Held world nanos) :=
  inferInstanceAs (Decidable (_ ∨ _))

instance (account : Account) (capacity : Nat) : Decidable (account.Room capacity) :=
  inferInstanceAs (Decidable (_ < _))

instance (world : World) (action : Action) : Decidable (Guarded world action) := by
  unfold Guarded
  split <;> infer_instance

def fresh : World := ⟨⟨[], 0, 0, 1⟩, [], .resting, [], []⟩

theorem starts_fresh : Starts fresh :=
  ⟨nofun, rfl, Nat.zero_le 1, rfl, rfl, rfl⟩

def relayed : List Action :=
  [.accept [49], .connection 0 .check, .connection 0 (.write 7 .linked), .connection 0 .count,
    .connection 0 (.publish true), .connection 0 (.remove true), .connection 0 .discount,
    .accept [50], .connection 1 .check, .connection 1 (.write 8 .linked), .connection 1 .count,
    .connection 1 (.publish false)]

theorem wal_accounted_relayed : Accounted (run World.exec fresh relayed) :=
  wal_accounted (reachable_run starts_fresh (by decide))

def crowded : List Action :=
  [.accept [49], .accept [50], .connection 0 .check, .connection 1 .check,
    .connection 0 (.write 7 .linked), .connection 1 (.write 8 .linked), .connection 0 .count,
    .connection 1 .count]

theorem bound_exceeded :
    Reachable World.exec Starts (fun _ _ => True) (run World.exec fresh crowded) ∧
      ¬Accounted (run World.exec fresh crowded) := by
  refine ⟨reachable_run starts_fresh (allAllowed_of_forall (fun _ _ _ => trivial) fresh), ?_⟩
  intro accounted
  exact absurd accounted.bounded (by decide)

end Runs

end Forge.WalAccounting
