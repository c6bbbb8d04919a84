import Mathlib.Data.Set.Function
import SuperShare.Network.ServerCa

/-!
# The trust directory

A client keeps the certificates of the servers that it is paired with in the trust directory, in
files named after the address. A server keeps the files of its CA there. The names are kept apart
by replacing what is not an ASCII letter or digit, so that two addresses can have the same names,
and an address those of the CA.
-/

namespace SuperShare

open Directory

/-- A key as a part of file names. -/
def safeName (key : String) : String :=
  String.ofList (key.toList.map fun c => if c.isAlphanum then c else '_')

/-- The names that are returned for a key: of the certificate, the private key and the CA. -/
def trustPaths (key : String) : String × String × String :=
  (safeName key ++ ".pem", safeName key ++ "-key.pem", safeName key ++ "-ca.pem")

/-- Persist provisioned material for a key: the writes, in order. -/
def writeTrustMaterial (key clientCertPem clientKeyPem caCertPem : String) :
    List (String × String) :=
  let (certPath, keyPath, caPath) := trustPaths key
  [(certPath, clientCertPem), (keyPath, clientKeyPem), (caPath, caCertPem)]

/-- Who writes in the trust directory. -/
inductive TrustOwner where
  | server
  | key (key : String)
  deriving DecidableEq

/-- A call that writes in the trust directory. For `ensure_server_ca`, the key pairs are those that
it generates. -/
inductive TrustCall (κ : Type) where
  | writeTrustMaterial (key clientCertPem clientKeyPem caCertPem : String)
  | ensureServerCa (serverIps : List String) (caKey serverKey : κ)

/-- The trust directory, with what its owners have written last. -/
abbrev TrustDir : Type := Shared TrustOwner String String

variable {κ γ : Type} (lib : CertLib κ γ String)

namespace TrustDir

/-- What `ensure_server_ca` does in the directory. -/
def ensure (s : TrustDir) (serverIps : List String) (caKey serverKey : κ) :
    List (ServerFile × String) × Except String Unit :=
  ensureServerCa lib (fun file => s.files file.name) serverIps caKey serverKey

/-- One call. -/
def step (s : TrustDir) : TrustCall κ → TrustDir
  | .writeTrustMaterial key clientCertPem clientKeyPem caCertPem =>
      s.write (.key key) (SuperShare.writeTrustMaterial key clientCertPem clientKeyPem caCertPem)
  | .ensureServerCa serverIps caKey serverKey =>
      s.write .server ((s.ensure lib serverIps caKey serverKey).1.map fun w => (w.1.name, w.2))

/-- The call returns `Ok`. -/
def Succeeds (s : TrustDir) : TrustCall κ → Prop
  | .writeTrustMaterial .. => True
  | .ensureServerCa serverIps caKey serverKey =>
      (s.ensure lib serverIps caKey serverKey).2 = .ok ()

/-- What was last written for a key is read at the names that are returned for it, the files of the
server hold what `ensure_server_ca` has written, and no two keys share a file. -/
structure Separate (s : TrustDir) : Prop where
  keys : ∀ key name contents, s.written (.key key) name = some contents →
    s.files name = some contents
  server : ∀ file contents, s.written .server (ServerFile.name file) = some contents →
    s.files file.name = some contents
  apart : ∀ key key' name, s.written (.key key) name ≠ none → s.written (.key key') name ≠ none →
    key = key'

end TrustDir

/-- The call is not for a key outside of the set. -/
def TrustCall.Within (keys : Set String) : TrustCall κ → Prop
  | writeTrustMaterial key .. => key ∈ keys
  | ensureServerCa .. => True

/-- The keys have different names, none of which is one of the server's. -/
structure NamesApart (keys : Set String) : Prop where
  injective : Set.InjOn safeName keys
  ca : ∀ key ∈ keys, safeName key ≠ "ca"
  server : ∀ key ∈ keys, safeName key ≠ "server"

/-- The files that an owner writes, for the keys of a set. -/
def trustFootprint (keys : Set String) : TrustOwner → Set String
  | .server => Set.range ServerFile.name
  | .key key => {name | key ∈ keys ∧
      (name = (trustPaths key).1 ∨ name = (trustPaths key).2.1 ∨ name = (trustPaths key).2.2)}

/-- A character that the names of keys have. -/
def isSafe (c : Char) : Bool := c.isAlphanum || c = '_'

/-- A file name is a base of safe characters with a suffix that starts with another one. -/
def HasBase (name base : String) : Prop :=
  base.toList.all isSafe = true ∧
    ∃ c rest, isSafe c = false ∧ name.toList = base.toList ++ c :: rest

/-- The base of a file name is as far as the safe characters go. -/
theorem HasBase.eq {name base base' : String} (h : HasBase name base) (h' : HasBase name base') :
    base = base' := by
  have htake : ∀ {b : String}, HasBase name b → name.toList.takeWhile isSafe = b.toList := by
    rintro b ⟨hsafe, c, rest, hc, hname⟩
    rw [hname, List.takeWhile_append_of_pos (List.all_eq_true.mp hsafe),
      List.takeWhile_cons_of_neg (by simp [hc]), List.append_nil]
  exact String.toList_inj.mp ((htake h).symm.trans (htake h'))

/-- The characters of a name are safe. -/
theorem safeName_safe (key : String) : (safeName key).toList.all isSafe = true := by
  rw [List.all_eq_true]
  intro c hc
  rw [safeName, String.toList_ofList] at hc
  obtain ⟨d, -, rfl⟩ := List.mem_map.mp hc
  unfold isSafe
  split
  · rename_i hd
    simp [hd]
  · rfl

/-- The paths of a key have its name as their base. -/
theorem hasBase_safeName {key name : String}
    (h : name = (trustPaths key).1 ∨ name = (trustPaths key).2.1 ∨ name = (trustPaths key).2.2) :
    HasBase name (safeName key) := by
  refine ⟨safeName_safe key, ?_⟩
  rcases h with rfl | rfl | rfl
  · exact ⟨'.', _, by decide, by simp [trustPaths]; rfl⟩
  · exact ⟨'-', _, by decide, by simp [trustPaths]; rfl⟩
  · exact ⟨'-', _, by decide, by simp [trustPaths]; rfl⟩

/-- The files of the server have the base `ca` or `server`. -/
theorem hasBase_serverFile (file : ServerFile) :
    HasBase file.name "ca" ∨ HasBase file.name "server" := by
  cases file with
  | caCert => exact .inl ⟨by decide, '.', "pem".toList, by decide, by decide⟩
  | caKey => exact .inl ⟨by decide, '-', "key.pem".toList, by decide, by decide⟩
  | serverCert => exact .inr ⟨by decide, '.', "pem".toList, by decide, by decide⟩
  | serverKey => exact .inr ⟨by decide, '-', "key.pem".toList, by decide, by decide⟩

variable {keys : Set String}

/-- No file is the server's and a key's. -/
theorem disjoint_server (h : NamesApart keys) (key : String) :
    ∀ name ∈ trustFootprint keys .server, name ∉ trustFootprint keys (.key key) := by
  rintro name ⟨file, rfl⟩ ⟨hkey, hname⟩
  have hbase := hasBase_safeName hname
  rcases hasBase_serverFile file with hca | hserver
  · exact h.ca key hkey (hbase.eq hca)
  · exact h.server key hkey (hbase.eq hserver)

/-- With names apart, no two owners write one file. -/
theorem disjoint_trustFootprint (h : NamesApart keys) :
    Pairwise fun o o' => ∀ name ∈ trustFootprint keys o, name ∉ trustFootprint keys o' := by
  intro o o' hne
  cases o with
  | server =>
    cases o' with
    | server => exact absurd rfl hne
    | key key => exact disjoint_server h key
  | key key =>
    cases o' with
    | server => exact fun name hname hserver => disjoint_server h key name hserver hname
    | key key' =>
      rintro name ⟨hkey, hname⟩ ⟨hkey', hname'⟩
      have hsame := (hasBase_safeName hname).eq (hasBase_safeName hname')
      exact hne (congrArg _ (h.injective hkey hkey' hsame))

namespace TrustDir

/-- A call writes in the footprint of its owner. -/
theorem intact_step (h : NamesApart keys) {s : TrustDir} {call : TrustCall κ}
    (hcall : call.Within keys) (hs : s.Intact (trustFootprint keys)) :
    (s.step lib call).Intact (trustFootprint keys) := by
  have hdisjoint := disjoint_trustFootprint h
  cases call with
  | writeTrustMaterial key clientCertPem clientKeyPem caCertPem =>
    refine hs.write hdisjoint fun name hname => ⟨hcall, ?_⟩
    simpa [SuperShare.writeTrustMaterial] using hname
  | ensureServerCa serverIps caKey serverKey =>
    refine hs.write hdisjoint fun name hname => ?_
    rw [List.map_map] at hname
    obtain ⟨w, -, rfl⟩ := List.mem_map.mp hname
    exact ⟨w.1, rfl⟩

/-- An intact directory with names apart is separate. -/
theorem separate_of_intact (h : NamesApart keys) {s : TrustDir}
    (hs : s.Intact (trustFootprint keys)) : s.Separate := by
  refine ⟨fun key => hs.readsBack (.key key), fun file => hs.readsBack .server file.name, ?_⟩
  intro key key' name hkey hkey'
  obtain ⟨hmem, hname⟩ := hs.within _ _ hkey
  obtain ⟨hmem', hname'⟩ := hs.within _ _ hkey'
  exact h.injective hmem hmem' ((hasBase_safeName hname).eq (hasBase_safeName hname'))

/-- A first call that succeeds writes all files of the server. -/
theorem ensure_empty {serverIps : List String} {caKey serverKey : κ}
    (hok : (ensureServerCa lib (fun _ => none) serverIps caKey serverKey).2 = .ok ())
    (file : ServerFile) :
    file ∈ (ensureServerCa lib (fun _ => none) serverIps caKey serverKey).1.map Prod.fst := by
  unfold ensureServerCa at hok ⊢
  cases hserver : generateServerCert lib (lib.caCertPem caKey) (lib.serializePem caKey) serverIps
      serverKey with
  | error e => simp [hserver] at hok
  | ok pem => cases file <;> simp [hserver]

/-- The three paths of a key differ. -/
theorem trustPaths_ne (key : String) :
    (trustPaths key).1 ≠ (trustPaths key).2.1 ∧ (trustPaths key).1 ≠ (trustPaths key).2.2 := by
  constructor <;> simp [trustPaths, String.ext_iff]

/-- A key whose certificate has the name of a file of the server overwrites it. -/
theorem not_separate_of_name {serverIps : List String} {caKey serverKey : κ}
    (hok : (ensureServerCa lib (fun _ => none) serverIps caKey serverKey).2 = .ok ())
    {key : String} {file : ServerFile} (hname : (trustPaths key).1 = file.name) :
    ∃ clientCertPem, ¬ (([.ensureServerCa serverIps caKey serverKey,
      .writeTrustMaterial key clientCertPem "" ""] : List (TrustCall κ)).foldl (step lib)
        (Shared.start fun _ => none)).Separate := by
  have hmem : file.name ∈ ((ensureServerCa lib (fun _ => none) serverIps caKey serverKey).1.map
      fun w => (w.1.name, w.2)).map Prod.fst := by
    obtain ⟨w, hw, hfile⟩ := List.mem_map.mp (ensure_empty lib hok file)
    rw [List.map_map]
    exact List.mem_map.mpr ⟨w, hw, congrArg ServerFile.name hfile⟩
  obtain ⟨contents, hcontents⟩ := exists_writeAll hmem fun _ => none
  refine ⟨contents ++ "x", fun hseparate => ?_⟩
  have hread := hseparate.server file contents hcontents
  obtain ⟨hkeyPath, hcaPath⟩ := trustPaths_ne key
  have hcert : (([.ensureServerCa serverIps caKey serverKey,
      .writeTrustMaterial key (contents ++ "x") "" ""] : List (TrustCall κ)).foldl (step lib)
        (Shared.start fun _ => none)).files file.name = some (contents ++ "x") := by
    rw [← hname]
    simp only [List.foldl_cons, List.foldl_nil, step, Shared.write, SuperShare.writeTrustMaterial,
      writeAll_cons, writeAll_nil]
    rw [Function.update_of_ne hcaPath, Function.update_of_ne hkeyPath, Function.update_self]
  have hsame : contents ++ "x" = contents := Option.some.inj (hcert.symm.trans hread)
  have hlength := congrArg String.length hsame
  simp at hlength

/-- **The trust directory.** Where `ensure_server_ca` can set up its files at all, the calls for a
set of keys and those of the server keep apart in every run in which they succeed, exactly if the
keys have different names, none of which is `ca` or `server`. -/
theorem separate_iff_namesApart
    (hworks : ∃ serverIps caKey serverKey,
      (ensureServerCa lib (fun _ => none) serverIps caKey serverKey).2 = .ok ())
    (keys : Set String) :
    (∀ files calls, (∀ call ∈ calls, call.Within keys) →
        Run.Along (step lib) (Succeeds lib) (Shared.start files) calls →
          (calls.foldl (step lib) (Shared.start files)).Separate) ↔ NamesApart keys := by
  obtain ⟨serverIps, caKey, serverKey, hok⟩ := hworks
  constructor
  · intro hall
    have hserver : ∀ key ∈ keys, ∀ file : ServerFile, (trustPaths key).1 ≠ file.name := by
      intro key hkey file hname
      obtain ⟨clientCertPem, hnot⟩ := not_separate_of_name lib hok hname
      refine hnot (hall (fun _ => none) _ ?_ ⟨hok, trivial, trivial⟩)
      simpa [TrustCall.Within] using hkey
    refine ⟨?_, ?_, ?_⟩
    · -- Both keys write the same certificate path.
      intro key hkey key' hkey' hsame
      by_contra hne
      have hseparate := hall (fun _ => none)
        [.writeTrustMaterial key "" "" "", .writeTrustMaterial key' "" "" ""]
        (by simp [TrustCall.Within, hkey, hkey']) ⟨trivial, trivial, trivial⟩
      refine hne (hseparate.apart key key' (trustPaths key).1 ?_ ?_)
      · simp [step, Shared.write, SuperShare.writeTrustMaterial, hne, trustPaths_ne,
          Function.update_apply]
      · simp [step, Shared.write, SuperShare.writeTrustMaterial, Function.update_apply, trustPaths,
          hsame]
    · intro key hkey hname
      exact hserver key hkey .caCert (by rw [trustPaths, hname]; rfl)
    · intro key hkey hname
      exact hserver key hkey .serverCert (by rw [trustPaths, hname]; rfl)
  · intro h files calls hcalls _
    refine separate_of_intact h ?_
    exact List.foldlRecOn calls (step lib) (Shared.intact_start _ files)
      fun s hs call hcall => intact_step lib h (hcalls call hcall) hs

/-- Symbolic functions whose PEM texts are the keys, and descriptions of certificates. -/
def symbolicTexts : CertLib String String String where
  serializePem key := key
  keyFromPem := .ok
  caCertPem key := "CA " ++ key
  fromCaCertPem := .ok
  serverSignedBy _ key _ issuer := .ok (key ++ " signed by " ++ issuer)

/-- The calls for one address. -/
theorem separate_iff_namesApart_address :
    (∀ files calls, (∀ call ∈ calls, call.Within {"10.0.0.1:9876"}) →
        Run.Along (step symbolicTexts) (Succeeds symbolicTexts) (Shared.start files) calls →
          (calls.foldl (step symbolicTexts) (Shared.start files)).Separate) ↔
      NamesApart {"10.0.0.1:9876"} :=
  separate_iff_namesApart symbolicTexts ⟨[], "key of the CA", "key of the server", rfl⟩ _

/-- Two hosts whose addresses differ in a `-` and a `.` share their files. -/
theorem hosts_share_files :
    let calls : List (TrustCall String) :=
      [.writeTrustMaterial "nas-1:9876" "certificate 1" "key 1" "CA 1",
        .writeTrustMaterial "nas.1:9876" "certificate 2" "key 2" "CA 2"]
    ¬ (calls.foldl (step symbolicTexts) (Shared.start fun _ => none)).Separate := by
  intro calls h
  have hread := h.keys "nas-1:9876" "nas_1_9876.pem" "certificate 1" (by decide)
  exact absurd hread (by decide)

end TrustDir

end SuperShare
