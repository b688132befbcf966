import LogForwarding.Proofs.Lockstep
import LogForwarding.Proofs.Objects
import LogForwarding.Proofs.Schema
import LogForwarding.Proofs.Scope
import LogForwarding.Proofs.Synthesis

/-!
The values of a Secret stay in it.  A look at a record is held with an API server in two states
between which Secrets of the same keys have other values.  All that is asked on the way, each request
with its body, and what comes of the look are the same in both.
-/

namespace LogForwarding

namespace Json

/-- The keys of an object that stands under a name. -/
def keysAt (name : String) (object : Json) : List String :=
  ((object.get? name).getD .null).members.keys

/-- The keys of a Secret, wherever their values stand. -/
def secretKeys (object : Json) : List String :=
  object.keysAt "data" ++ object.keysAt "stringData"

def saysImmutable (object : Json) : Bool :=
  object.get? "immutable" = some (.bool true)

/-- An object can be read as a Secret. -/
def IsSecret (object : Json) : Prop :=
  ∃ name snapshot, SecretSnapshot.decode name object = .ok snapshot

/-- Two Secrets with the same keys, of which both or neither may be changed.  Nothing is said about
what stands under the keys. -/
structure SameButValues (object other : Json) : Prop where
  isSecret : object.IsSecret
  isSecret' : other.IsSecret
  keys : ∀ key, key ∈ object.secretKeys ↔ key ∈ other.secretKeys
  immutable : object.saysImmutable = other.saysImmutable

end Json

section Snapshot

open Fields

variable {members : Dictionary Json}

instance {kind : ResourceKind} : (headerFields kind).Proper := by
  unfold headerFields
  infer_instance

instance : immutableField.Proper := by
  unfold immutableField
  infer_instance

instance {α : Type} {item : Decoder α} {name : String} : (keysOf item name).Proper := by
  unfold keysOf
  infer_instance

theorem keys_of_entries {α : Type} {item : Decoder α} {position : Nat} {results : Dictionary α}
    (hread : Decoder.entries item position members = .ok results) : results.keys = members.keys := by
  induction members generalizing position results with
  | nil =>
      cases hread
      rfl
  | cons entry rest ih =>
      obtain ⟨first, others, -, hothers, rfl⟩ := Decoder.entries_cons_ok_iff.mp hread
      exact congrArg (entry.1 :: ·) (ih hothers)

/-- The keys that are read under a name are those that stand there. -/
theorem eq_keysAt_of_reads {α : Type} {item : Decoder α} {name : String} {keys : List String}
    (hreads : (keysOf item name).Reads members keys) : keys = (Json.obj members).keysAt name := by
  obtain ⟨found, hfound, rfl⟩ := reads_map.mp hreads
  have hentries := dictionary_members_of_nullable (nullable_head_of_reads hfound)
  rw [Json.keysAt, Json.get?, ← keys_of_entries hentries]
  cases found <;> rfl

theorem eq_saysImmutable_of_reads {immutable : Bool}
    (hreads : immutableField.Reads members immutable) :
    immutable = (Json.obj members).saysImmutable := by
  obtain ⟨found, hfound, rfl⟩ := reads_map.mp hreads
  rw [Json.saysImmutable, Json.get?]
  rcases find?_of_reads_field hfound with ⟨hnone, habsent⟩ | ⟨value, hvalue, hitem⟩
  · cases habsent
    simp [hnone]
  · rw [hvalue]
    cases value with
    | null =>
        cases hitem
        simp
    | bool told =>
        cases hitem
        cases told <;> simp
    | _ => simp [Decoder.nullable, Decoder.boolean, Except.map] at hitem

/-- Of a Secret only its keys are read, and whether it may be changed. -/
theorem SecretSnapshot.decode_eq {object : Json} (hsecret : object.IsSecret) (name : String) :
    SecretSnapshot.decode name object =
      .ok ⟨name, object.saysImmutable, Dictionary.sortedSet object.secretKeys⟩ := by
  obtain ⟨other, snapshot, hdecode⟩ := hsecret
  obtain ⟨members, rfl, hreads⟩ := objectDecoder_ok_iff.mp hdecode
  obtain ⟨_, texts, hreads, htexts, -⟩ := reads_seq.mp hreads
  obtain ⟨_, keys, hreads, hkeys, -⟩ := reads_seq.mp hreads
  obtain ⟨_, immutable, hreads, himmutable, -⟩ := reads_seq.mp hreads
  obtain ⟨header, hheader, -⟩ := reads_map.mp hreads
  have hsnapshot : (⟨name, (Json.obj members).saysImmutable,
      Dictionary.sortedSet (Json.obj members).secretKeys⟩ : SecretSnapshot) =
        ⟨name, immutable, Dictionary.sortedSet (keys ++ texts)⟩ := by
    rw [eq_keysAt_of_reads hkeys, eq_keysAt_of_reads htexts, eq_saysImmutable_of_reads himmutable]
    rfl
  rw [hsnapshot]
  exact objectDecoder_ok_iff.mpr ⟨members, rfl, reads_seq.mpr ⟨_, _, reads_seq.mpr ⟨_, _,
    reads_seq.mpr ⟨_, _, reads_map.mpr ⟨header, hheader, rfl⟩, himmutable, rfl⟩, hkeys, rfl⟩,
      htexts, rfl⟩⟩

theorem Json.SameButValues.decode_eq {object other : Json} (hsame : object.SameButValues other)
    (name : String) : SecretSnapshot.decode name object = SecretSnapshot.decode name other := by
  rw [SecretSnapshot.decode_eq hsame.isSecret, SecretSnapshot.decode_eq hsame.isSecret',
    hsame.immutable, Dictionary.sortedSet_congr hsame.keys]

end Snapshot

/-- Two answers with which the same Secret is read, whatever its values are. -/
structure ApiResponse.SameButValues (response other : ApiResponse) : Prop where
  accepted : ¬ response.isRefusal
  accepted' : ¬ other.isRefusal
  body : response.body.SameButValues other.body

theorem ApiResponse.SameButValues.result_eq {response other : ApiResponse}
    (hsame : response.SameButValues other) (name : String) :
    response.result (SecretSnapshot.decode name) = other.result (SecretSnapshot.decode name) := by
  rw [result, result, if_neg hsame.accepted, if_neg hsame.accepted', hsame.body.decode_eq,
    SecretSnapshot.decode_eq hsame.body.isSecret']
  rfl

/-- Two answers to a request are the same, or a Secret was read and they differ in its values
only. -/
def ApiRequest.SameButValues (request : ApiRequest) (response other : ApiResponse) : Prop :=
  response = other ∨ ∃ key, request = .get key ∧ key.kind = .secret ∧ response.SameButValues other

/-- Nothing but a Secret is answered in different ways. -/
theorem ApiRequest.SameButValues.eq {request : ApiRequest} {response other : ApiResponse}
    (hsame : request.SameButValues response other)
    (hother : ∀ key, request = .get key → key.kind ≠ .secret) : response = other :=
  hsame.resolve_right fun ⟨key, hrequest, hkind, _⟩ => hother key hrequest hkind

section Blind

/-- To read a Secret is to be blind to its values. -/
theorem Session.blind_read (key : ObjectKey) (name : String) :
    (read key (SecretSnapshot.decode name)).Blind (ApiQuestion.Alike ApiRequest.SameButValues) := by
  rw [read]
  split
  · trivial
  · refine Dialogue.Blind.bind ⟨?_, fun _ => trivial⟩ fun reply => by cases reply <;> trivial
    rintro answer other (rfl | ⟨response, response', rfl, rfl, rfl | ⟨_, -, -, hsame⟩⟩)
    · rfl
    · rfl
    · exact congrArg (fun result => Dialogue.done (Reply.ofExcept result)) (hsame.result_eq name)

/-- Only to resolve a Secret one is asked for. -/
theorem Call.Makes.kind_ne_secret {call : Call} {key : ObjectKey} (hmakes : call.Makes (.get key))
    (hcall : ∀ ns name, call ≠ .secret ns name) : key.kind ≠ .secret := by
  cases call with
  | secret ns name => exact absurd rfl (hcall ns name)
  | cluster ns =>
      cases hmakes
      exact (by decide : ResourceKind.cluster ≠ .secret)
  | configMap ns name =>
      cases hmakes
      exact (by decide : ResourceKind.configMap ≠ .secret)
  | monitoring ns action =>
      cases action with
      | apply objects =>
          obtain ⟨object, -, heq⟩ := hmakes
          cases heq
      | remove =>
          obtain ⟨object, -, heq⟩ := hmakes
          cases heq
  | channel ns bundle action =>
      cases action with
      | await state seconds =>
          cases hmakes
          exact (by decide : ResourceKind.bundle ≠ .secret)
      | _ => cases hmakes

theorem ApiCalls.blind_perform (interval : Nat) (call : Call) :
    (perform interval call).Blind (ApiQuestion.Alike ApiRequest.SameButValues) := by
  by_cases hsecret : ∃ ns name, call = .secret ns name
  · obtain ⟨ns, name, rfl⟩ := hsecret
    exact Session.blind_read _ name
  · refine ((asks_perform interval call).mono fun question hinvolves answer other halike => ?_).blind
    refine halike.eq fun request hrequest _ _ hsame => hsame.eq ?_
    rintro key rfl
    exact (hinvolves.makes hrequest).kind_ne_secret fun ns name heq => hsecret ⟨ns, name, heq⟩

theorem Controller.blind_reconcile (settings : Settings) (record : TenantRecord) :
    (reconcile settings record).Blind (ApiQuestion.Alike ApiRequest.SameButValues) := by
  have hcalls (ns : String) (_ : record.metadata.ns = some ns) :
      Act.Asks (fun _ => True) (Actuator.transit settings record ns (Transition.plan record)) :=
    fun _ => Dialogue.Asks.of_forall (fun _ => trivial) _
  refine (asks_belonging hcalls).interpret_blind fun inquiry hbelongs => ?_
  obtain ⟨ns, -, hbelongs⟩ := hbelongs
  cases inquiry with
  | call call => exact ApiCalls.blind_perform _ call
  | api question =>
      refine ⟨fun answer other halike => ?_, fun _ => trivial⟩
      rw [halike.eq fun request hrequest _ _ hsame => hsame.eq ?_]
      rintro key rfl
      rw [Option.some.inj (hbelongs.key?_eq hrequest)]
      exact (by decide : ResourceKind.record ≠ .secret)

end Blind

/-- A look at a record owns no Secret. -/
theorem TenantRecord.Owns.kind_ne_secret {record : TenantRecord} {key : ObjectKey}
    (howns : record.Owns key) : key.kind ≠ .secret := by
  obtain ⟨ns, -, rfl | ⟨-, hkind⟩⟩ := howns
  · exact (by decide : ResourceKind.record ≠ .secret)
  · intro hsecret
    rw [hsecret] at hkind
    exact absurd hkind (by decide)

namespace ApiServer

variable {Cell : Type} {server : ApiServer Cell}

/-- What a server keeps at a key is the same in two states, or it answers with a Secret in both of
them and only the values differ. -/
def SameButValues (server : ApiServer Cell) (cells others : ObjectKey → Cell) : Prop :=
  ∀ key, cells key = others key ∨ key.kind = .secret ∧
    (server.respond (.get key) (cells key)).1.SameButValues
      (server.respond (.get key) (others key)).1

variable {cells others : ObjectKey → Cell}

theorem SameButValues.serve (hsame : server.SameButValues cells others) {record : TenantRecord}
    {request : ApiRequest} (hconcerns : request.Concerns record) :
    request.SameButValues (server.serve request cells).1 (server.serve request others).1 ∧
      server.SameButValues (server.serve request cells).2 (server.serve request others).2 := by
  obtain ⟨key, hkey, -, hwrite⟩ := hconcerns
  rw [serve_of_key? hkey, serve_of_key? hkey]
  rcases hsame key with heq | ⟨hkind, hdiffer⟩
  · rw [heq]
    refine ⟨Or.inl rfl, fun other => ?_⟩
    dsimp only
    by_cases hother : other = key
    · subst hother
      exact Or.inl (by simp)
    · rw [Function.update_of_ne hother, Function.update_of_ne hother]
      exact hsame other
  · obtain rfl := hwrite.resolve_right fun howns => howns.kind_ne_secret hkind
    rw [server.respond_get, server.respond_get, Function.update_eq_self, Function.update_eq_self]
    exact ⟨Or.inr ⟨key, rfl, hkind, hdiffer⟩, hsame⟩

end ApiServer

namespace Controller

/-- Between two states of an API server in which only values of Secrets differ, there is no
difference in what a look at a record asks, in what is written by it, and in what comes of it. -/
theorem secret_values_do_not_show {Cell : Type} {server : ApiServer Cell} (settings : Settings)
    (record : TenantRecord) (instants : Nat → Instant) {cells others : ObjectKey → Cell}
    (hsame : server.SameButValues cells others) :
    let look := reconcile settings record
    let answer := server.answerTimed instants
    (look.run answer (0, cells)).1 = (look.run answer (0, others)).1 ∧
    look.questionsWith answer (0, cells) = look.questionsWith answer (0, others) ∧
    server.SameButValues (look.run answer (0, cells)).2.2 (look.run answer (0, others)).2.2 := by
  exact ApiServer.run_alike (blind_reconcile settings record) (asks_concerns settings record)
    (fun _ _ => Or.inl rfl) (fun _ hconcerns _ _ hsame => hsame.serve hconcerns) instants 0 hsame

/-- A record that asks for a secured connection. -/
def sampleSecured : TenantRecord :=
  { TenantRecord.sample false with
    document := some (Json.object
      [("apiVersion", .str documentVersion), ("kind", .str DocumentKind.config.text),
       ("target", .str "10.2.64.54"), ("port", .int 80),
       ("tls", Json.object [("enabled", .bool true), ("secretReferenceName", .str "relp-tls")])]) }

/-- What is kept for its tenant when the Secret to which the reference leads has these members. -/
def sampleObjects (data texts : List (String × Json)) : Objects := fun key =>
  if key = ⟨.secret, some "tenant", "relp-tls-v2"⟩ then
    some (Json.object [("immutable", .bool true), ("data", Json.object data),
      ("stringData", Json.object texts)])
  else if key = ⟨.cluster, none, "tenant"⟩ then
    some (Json.object [("metadata", Json.object [("name", .str "tenant")]),
      ("spec", Cluster.referring.spec.toJson)])
  else none

/-- Key material, and other key material that is kept in another way. -/
theorem sampleObjects_sameButValues :
    ApiServer.plain.SameButValues
      (sampleObjects [("ca", .str "YQ=="), ("crt", .str "Yg=="), ("key", .str "Yw==")] [])
      (sampleObjects [("ca", .str "ZA==")] [("crt", .str "e"), ("key", .str "f")]) := by
  intro key
  by_cases hkey : key = ⟨.secret, some "tenant", "relp-tls-v2"⟩
  · subst hkey
    refine Or.inr ⟨rfl, by decide, by decide, ?_, ?_, ?_, by decide⟩
    · exact ⟨"relp-tls-v2", .sample, by decide +kernel⟩
    · exact ⟨"relp-tls-v2", .sample, by decide +kernel⟩
    · exact fun key => Iff.rfl
  · refine Or.inl ?_
    rw [sampleObjects, sampleObjects, if_neg hkey, if_neg hkey]

/-- Key material that is renewed makes no difference to that record. -/
theorem sampleSecured_is_blind :
    ApiServer.plain.SameButValues
      (sampleObjects [("ca", .str "YQ=="), ("crt", .str "Yg=="), ("key", .str "Yw==")] [])
      (sampleObjects [("ca", .str "ZA==")] [("crt", .str "e"), ("key", .str "f")]) ∧
    let look := reconcile .standard sampleSecured
    let answer := ApiServer.plain.answerTimed fun _ => .calm
    (look.run answer (0, sampleObjects
        [("ca", .str "YQ=="), ("crt", .str "Yg=="), ("key", .str "Yw==")] [])).1 =
      (look.run answer (0, sampleObjects
        [("ca", .str "ZA==")] [("crt", .str "e"), ("key", .str "f")])).1 :=
  ⟨sampleObjects_sameButValues,
    (secret_values_do_not_show .standard sampleSecured _ sampleObjects_sameButValues).1⟩

end Controller

end LogForwarding
