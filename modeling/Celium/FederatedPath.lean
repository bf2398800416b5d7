import Celium.Mesh
import Celium.Lib.Text
/-!
# FederatedPath — the two readers of a federated path

`/cluster/<node>/vms/<n>` is read twice: by `NamespaceFederation::resolve`, which looks the row up, and by
`parse_cluster_path` of the mesh, which routes an operation to its owner.  Both split at the same places and hand the
last segment to `u32`'s `from_str` (`Spells`); the mesh also refuses an empty node, and the table does not.
-/
namespace Celium

open Fixed Text

/-- The row's federated path. -/
def RemoteVm.path (v : RemoteVm) : String := "/cluster/" ++ v.owner.raw ++ "/vms/" ++ toString v.vmId.toNat

def NamespaceFederation.resolve (f : NamespaceFederation) (path : String) : Except Unit (Option RemoteVm) :=
  match path.toList.dropPrefix? "/cluster/".toList with
  | none => .error ()
  | some suffix =>
    match splitOnce '/' suffix with
    | none => .error ()
    | some (node, rest) =>
      match rest.dropPrefix? "vms/".toList with
      | none => .error ()
      | some rest =>
        if rest.isEmpty || rest.contains '/' then .error ()
        else match parseUnsigned u32Max rest with
          | none => .error ()
          | some n => .ok (f.rows.lookup (⟨String.ofList node⟩, UInt32.ofNat n))

def parseClusterPath (path : String) : CelResult (NodeId × UInt32) :=
  match path.toList.dropPrefix? "/cluster/".toList with
  | none => .error (.invalid "path: missing /cluster/ prefix")
  | some suffix =>
    match splitOnce '/' suffix with
    | none => .error (.invalid "path: expected /cluster/<node>/vms/<n>")
    | some (node, rest) =>
      if node.isEmpty then .error (.invalid "path: empty node id")
      else match rest.dropPrefix? "vms/".toList with
        | none => .error (.invalid "path: expected /vms/<n> segment")
        | some rest =>
          if rest.isEmpty || rest.contains '/' then .error (.invalid "path: expected exactly one VM segment")
          else match parseUnsigned u32Max rest with
            | none => .error (.invalid "path: VM id is not a u32")
            | some n => .ok (⟨String.ofList node⟩, UInt32.ofNat n)

/-! ## What they read -/

/-- The path has these segments, and `from_str` reads the last one as `n`. -/
def Spells (path : String) (node digits : List Char) (n : Nat) : Prop :=
  path.toList = "/cluster/".toList ++ (node ++ '/' :: ("vms/".toList ++ digits)) ∧ '/' ∉ node ∧
    parseUnsigned u32Max digits = some n

/-- What `from_str` reads is one segment. -/
theorem segment_of_parse {digits : List Char} {n : Nat} (h : parseUnsigned u32Max digits = some n) :
    (digits.isEmpty || digits.contains '/') = false := by
  have hslash : '/' ∉ digits := by
    intro hmem
    rw [parseUnsigned_none (by decide) (by decide) hmem] at h
    cases h
  cases digits with
  | nil => cases h
  | cons d ds => simpa using hslash

theorem Spells.unique {path : String} {node node' digits digits' : List Char} {n n' : Nat}
    (h : Spells path node digits n) (h' : Spells path node' digits' n') : node = node' ∧ n = n' := by
  have heq := List.append_cancel_left (h.1.symm.trans h'.1)
  obtain ⟨hnode, hrest⟩ := prefix_inj h.2.1 h'.2.1 heq
  obtain rfl := List.append_cancel_left hrest
  exact ⟨hnode, Option.some.inj (h.2.2.symm.trans h'.2.2)⟩

/-- **`resolve` looks up what the path spells.** -/
theorem resolve_eq_ok {f : NamespaceFederation} {path : String} {row : Option RemoteVm} :
    f.resolve path = .ok row ↔ ∃ node digits n, Spells path node digits n ∧
      row = f.rows.lookup (⟨String.ofList node⟩, UInt32.ofNat n) := by
  constructor
  · intro h
    unfold NamespaceFederation.resolve at h
    split at h; · cases h
    rename_i suffix hsuffix
    split at h; · cases h
    rename_i node rest hsplit
    split at h; · cases h
    rename_i digits hdigits
    split at h; · cases h
    split at h; · cases h
    rename_i n hn
    obtain ⟨hs, hnode⟩ := splitOnce_eq_some.1 hsplit
    refine ⟨node, digits, n, ⟨?_, hnode, hn⟩, (Except.ok.inj h).symm⟩
    rw [dropPrefix_eq_some.1 hsuffix, hs, dropPrefix_eq_some.1 hdigits]
  · rintro ⟨node, digits, n, ⟨hpath, hnode, hn⟩, rfl⟩
    rw [NamespaceFederation.resolve, dropPrefix_eq_some.2 hpath]
    simp only [splitOnce_append hnode, dropPrefix_eq_some.2 rfl, segment_of_parse hn, hn, Bool.false_eq_true, if_false]

/-- **`parse_cluster_path` answers what the path spells**, if its node is not empty. -/
theorem parseClusterPath_eq_ok {path : String} {key : NodeId × UInt32} :
    parseClusterPath path = .ok key ↔ ∃ node digits n, Spells path node digits n ∧ node ≠ [] ∧
      key = (⟨String.ofList node⟩, UInt32.ofNat n) := by
  constructor
  · intro h
    unfold parseClusterPath at h
    split at h; · cases h
    rename_i suffix hsuffix
    split at h; · cases h
    rename_i node rest hsplit
    split at h; · cases h
    rename_i hne
    split at h; · cases h
    rename_i digits hdigits
    split at h; · cases h
    split at h; · cases h
    rename_i n hn
    obtain ⟨hs, hnode⟩ := splitOnce_eq_some.1 hsplit
    refine ⟨node, digits, n, ⟨?_, hnode, hn⟩, by simpa using hne, (Except.ok.inj h).symm⟩
    rw [dropPrefix_eq_some.1 hsuffix, hs, dropPrefix_eq_some.1 hdigits]
  · rintro ⟨node, digits, n, ⟨hpath, hnode, hn⟩, hne, rfl⟩
    have hfull : node.isEmpty = false := List.isEmpty_eq_false_iff.2 hne
    rw [parseClusterPath, dropPrefix_eq_some.2 hpath]
    simp only [splitOnce_append hnode, dropPrefix_eq_some.2 rfl, segment_of_parse hn, hn, hfull, Bool.false_eq_true,
      if_false]

/-! ## Where they agree -/

/-- Both refuse the path, or both read it as the same key. -/
def PathsAgree (f : NamespaceFederation) (path : String) : Prop :=
  ((∃ e, f.resolve path = .error e) ↔ ∃ e, parseClusterPath path = .error e) ∧
    ∀ node n row, parseClusterPath path = .ok (node, n) → f.resolve path = .ok row → row = f.rows.lookup (node, n)

/-- The path names a VM of the node with the empty name. -/
def EmptyNode (path : String) : Prop :=
  ∃ digits n, path.toList = "/cluster//vms/".toList ++ digits ∧ parseUnsigned u32Max digits = some n

theorem emptyNode_iff {path : String} : EmptyNode path ↔ ∃ digits n, Spells path [] digits n := by
  have hsplit : ∀ digits : List Char, "/cluster//vms/".toList ++ digits =
      "/cluster/".toList ++ ([] ++ '/' :: ("vms/".toList ++ digits)) := fun digits => rfl
  simp only [EmptyNode, Spells, hsplit, List.not_mem_nil, not_false_eq_true, true_and]

theorem error_iff_not_ok {ε α : Type} {x : Except ε α} : (∃ e, x = .error e) ↔ ¬ ∃ a, x = .ok a := by
  cases x <;> simp

theorem pathsAgree_iff (f : NamespaceFederation) (path : String) : PathsAgree f path ↔ ¬ EmptyNode path := by
  rw [emptyNode_iff, PathsAgree, error_iff_not_ok, error_iff_not_ok, not_iff_not]
  constructor
  · rintro ⟨hok, -⟩ ⟨digits, n, hspells⟩
    -- the table accepts the empty node, so the mesh would have to
    obtain ⟨key, hkey⟩ := hok.1 ⟨_, resolve_eq_ok.2 ⟨[], digits, n, hspells, rfl⟩⟩
    obtain ⟨node, digits', n', hspells', hne, -⟩ := parseClusterPath_eq_ok.1 hkey
    exact hne (hspells'.unique hspells).1
  · intro hfull
    refine ⟨⟨?_, ?_⟩, ?_⟩
    · rintro ⟨row, hrow⟩
      obtain ⟨node, digits, n, hspells, -⟩ := resolve_eq_ok.1 hrow
      have hne : node ≠ [] := by
        rintro rfl
        exact hfull ⟨digits, n, hspells⟩
      exact ⟨_, parseClusterPath_eq_ok.2 ⟨node, digits, n, hspells, hne, rfl⟩⟩
    · rintro ⟨key, hkey⟩
      obtain ⟨node, digits, n, hspells, -⟩ := parseClusterPath_eq_ok.1 hkey
      exact ⟨_, resolve_eq_ok.2 ⟨node, digits, n, hspells, rfl⟩⟩
    · intro node n row hkey hrow
      obtain ⟨cs, digits, m, hspells, -, heq⟩ := parseClusterPath_eq_ok.1 hkey
      obtain ⟨cs', digits', m', hspells', rfl⟩ := resolve_eq_ok.1 hrow
      obtain ⟨rfl, rfl⟩ := hspells'.unique hspells
      rw [heq]

/-- A row's path spells its key. -/
theorem spells_path (v : RemoteVm) (h : '/' ∉ v.owner.raw.toList) :
    Spells v.path v.owner.raw.toList (toString v.vmId.toNat).toList v.vmId.toNat := by
  refine ⟨?_, h, parseUnsigned_toString (le_u32Max v.vmId)⟩
  have hvms : "/vms/".toList = '/' :: "vms/".toList := rfl
  simp only [RemoteVm.path, String.toList_append, hvms, List.append_assoc, List.cons_append]

/-- **The two readers agree on a path exactly when it does not name the empty node**, whatever is in the table; and both
read the path of a row whose owner is neither empty nor has a slash back as that row's key. -/
theorem federated_paths_agree_iff (f : NamespaceFederation) :
    (∀ path, PathsAgree f path ↔ ¬ EmptyNode path) ∧
    ∀ row : RemoteVm, row.owner.raw ≠ "" → '/' ∉ row.owner.raw.toList →
      parseClusterPath row.path = .ok (row.owner, row.vmId) ∧
      (f.rows.lookup row.key = some row → f.resolve row.path = .ok (some row)) := by
  refine ⟨pathsAgree_iff f, fun row hne hslash => ?_⟩
  have hspells := spells_path row hslash
  have hkey : (⟨String.ofList row.owner.raw.toList⟩, UInt32.ofNat row.vmId.toNat) = (row.owner, row.vmId) := by
    rw [String.ofList_toList, UInt32.ofNat_toNat]
  constructor
  · refine parseClusterPath_eq_ok.2 ⟨_, _, _, hspells, ?_, hkey.symm⟩
    intro hnil
    exact hne (String.toList_eq_nil_iff.1 hnil)
  · intro hrow
    refine resolve_eq_ok.2 ⟨_, _, _, hspells, ?_⟩
    rw [hkey, ← hrow]
    rfl

/-- A row of node `b`, filed in the table of node `a`. -/
def peerRow : RemoteVm :=
  { owner := ⟨"b"⟩, vmId := 7, label := "vm", state := "created", lastExit := none, epoch := 0, hlc := 1, ownerAlive := true,
    restartPolicy := .never, volumes := [], imagePath := none, cpuCount := none, memoryMib := none, bootBlobCrc32c := none }

theorem peerRow_found :
    parseClusterPath peerRow.path = .ok (⟨"b"⟩, 7) ∧
    ((NamespaceFederation.new ⟨"a"⟩).merge peerRow).2.resolve peerRow.path = .ok (some peerRow) := by
  have h := (federated_paths_agree_iff ((NamespaceFederation.new ⟨"a"⟩).merge peerRow).2).2 peerRow (by decide) (by decide)
  exact ⟨h.1, h.2 (by decide)⟩

/-- The mesh refuses `/cluster//vms/0`; the table answers that there is no such VM. -/
theorem empty_node_splits_readers :
    (NamespaceFederation.new ⟨"a"⟩).resolve "/cluster//vms/0" = .ok none ∧
    parseClusterPath "/cluster//vms/0" = .error (.invalid "path: empty node id") ∧
    ¬ PathsAgree (.new ⟨"a"⟩) "/cluster//vms/0" := by
  refine ⟨rfl, rfl, fun h => ?_⟩
  obtain ⟨e, he⟩ := h.1.2 ⟨_, rfl⟩
  cases he

end Celium
