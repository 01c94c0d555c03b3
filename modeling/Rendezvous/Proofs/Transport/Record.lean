/-
Messages on their way through a broker.

A record carries the headers of a message in the order of their names.  Null values are not
carried, and a value that is no text is carried as its compact text, so what arrives is the carried
form of what was sent (`Headers.carried`), and that form arrives as it is.  The identity is among
the headers, so the message that is read back is the one that was sent (`broker_transparent`).
-/
import Mathlib.Data.List.Basic
import Rendezvous.Proofs.Identity
import Rendezvous.Proofs.Text
import Rendezvous.Transport.Record

namespace Rendezvous

/-- What a broker makes of the value of a header. -/
def Json.carried? : Json → Option Json
  | .null => none
  | .str s => some (.str s)
  | v => some (.str v.text)

namespace Headers

/-- What a broker makes of an entry. -/
def carriedPair? (e : String × Json) : Option (String × Json) := e.2.carried?.map fun v => (e.1, v)

theorem carriedPair?_eq_some {e e' : String × Json} (h : carriedPair? e = some e') :
    e'.1 = e.1 ∧ e.2.carried? = some e'.2 := by
  obtain ⟨v, hv, rfl⟩ := Option.map_eq_some_iff.mp h
  exact ⟨rfl, hv⟩

theorem ordered_carried {es : List (String × Json)} (h : Entries.Ordered es) :
    Entries.Ordered (es.filterMap carriedPair?) := by
  refine List.Pairwise.filterMap _ (fun a b hab a' ha b' hb => ?_) h
  rw [(carriedPair?_eq_some ha).1, (carriedPair?_eq_some hb).1]
  exact hab

/-- The headers that arrive behind a broker: those that are not null, each as a text. -/
def carried (h : Headers) : Headers := ⟨h.entries.filterMap carriedPair?, ordered_carried h.ordered⟩

theorem find?_carried (h : Headers) (name : String) :
    h.carried.find? name = (h.find? name).bind Json.carried? := by
  show Entries.find? name (h.entries.filterMap carriedPair?) = _
  cases hv : (h.find? name).bind Json.carried? with
  | some v =>
    obtain ⟨v', hfind, hcarried⟩ := Option.bind_eq_some_iff.mp hv
    refine Entries.find?_eq_some_of_mem (ordered_carried h.ordered) (List.mem_filterMap.mpr
      ⟨(name, v'), Entries.mem_of_find?_eq_some hfind, ?_⟩)
    rw [carriedPair?, hcarried, Option.map_some]
  | none =>
    cases hfind : Entries.find? name (h.entries.filterMap carriedPair?) with
    | none => rfl
    | some v =>
      obtain ⟨⟨k, v'⟩, hmem, hentry⟩ := List.mem_filterMap.mp (Entries.mem_of_find?_eq_some hfind)
      obtain ⟨hname, hcarried⟩ := carriedPair?_eq_some hentry
      obtain rfl : name = k := hname
      rw [Dict.find?, Entries.find?_eq_some_of_mem h.ordered hmem, Option.bind_some,
        hcarried] at hv
      cases hv

/-- Headers that are texts arrive as they are. -/
theorem carried_of_texts {h : Headers} (ht : ∀ e ∈ h.entries, ∃ s, e.2 = .str s) :
    h.carried = h := by
  have hentries : h.entries.filterMap carriedPair? = h.entries := by
    refine (List.filterMap_congr fun e he => ?_).trans List.filterMap_some
    obtain ⟨s, hs⟩ := ht e he
    rw [carriedPair?, hs]
    exact congrArg some (Prod.ext rfl hs.symm)
  obtain ⟨entries, ordered⟩ := h
  exact Dict.mk.injEq .. ▸ hentries

end Headers

namespace RecordHeaders

theorem carried?_eq (v : Json) : v.carried? = (valueText? v).map Json.str := by
  cases v <;> rfl

/-- What is read of an entry that was written. -/
theorem read_written (e : String × Json) :
    ((valueText? e.2).map fun s => (e.1, some (Text.toBytes s))).bind
        (fun w => (w.2.bind Text.ofBytes?).map fun s => (w.1, Json.str s)) =
      Headers.carriedPair? e := by
  rw [Headers.carriedPair?, carried?_eq]
  cases valueText? e.2 with
  | none => rfl
  | some s => simp [Text.ofBytes?_toBytes]

theorem toHeaders_ofHeaders (h : Headers) : toHeaders (ofHeaders h) = h.carried := by
  have hread : (ofHeaders h).filterMap (fun w =>
      (w.2.bind Text.ofBytes?).map fun s => (w.1, Json.str s)) = h.carried.entries := by
    rw [ofHeaders, List.filterMap_filterMap]
    exact List.filterMap_congr fun e _ => read_written e
  refine Dict.ext_find? fun name => ?_
  rw [toHeaders, hread, Dict.find?, Dict.entries_ofList h.carried.ordered, Dict.find?]

/-- What was read from a record is made of texts. -/
theorem texts_toHeaders (l : RecordHeaders) : ∀ e ∈ (toHeaders l).entries, ∃ s, e.2 = .str s := by
  intro e he
  obtain ⟨w, -, hw⟩ := List.mem_filterMap.mp (Dict.mem_of_mem_ofList he)
  obtain ⟨s, -, rfl⟩ := Option.map_eq_some_iff.mp hw
  exact ⟨s, rfl⟩

theorem names_ofHeaders (h : Headers) :
    (ofHeaders h).map Prod.fst = h.carried.entries.map Prod.fst := by
  show (h.entries.filterMap _).map _ = (h.entries.filterMap _).map _
  rw [List.map_filterMap, List.map_filterMap]
  refine List.filterMap_congr fun e _ => ?_
  rw [Headers.carriedPair?, carried?_eq]
  cases valueText? e.2 <;> rfl

end RecordHeaders

/-! ## Messages -/

theorem Draft.build_eq {π : Type} (d : Draft π) (s : Supply) :
    (d.build s).1 = Message.assemble (d.build s).1.id d.headers d.payload := by
  unfold build
  cases d.ownId? <;> rfl

/-- A message that carries its identity among its headers is read back with it. -/
theorem Position.message_eq {p : Position} {h : Headers} {u : Uuid} {payload : Bytes}
    (hid : h.find? Headers.idName = some (.str u.text)) :
    p.message h (some payload) = ⟨u, h, payload⟩ := by
  have htext : h.text? Headers.idName = some u.text := by
    rw [Headers.text?, hid]
    rfl
  have hparse : (h.text? Headers.idName).bind Uuid.parse? = some u := by
    rw [htext, Option.bind_some, Uuid.parse?_text]
  have hput : h.putText Headers.idName u.text = h := Dict.insert_of_find? hid
  unfold message Message.assemble
  simp only [hparse, Option.getD_some, hput]

/-- Headers go through a broker but for their carried form, which then no broker changes.  They are
written in the order of the octets of their names, each name once.  A message that was built comes
back as the same message, wherever its record stands. -/
theorem broker_transparent :
    (∀ h : Headers, (RecordHeaders.ofHeaders h).toHeaders = h.carried ∧
      (RecordHeaders.ofHeaders h).map Prod.fst = h.carried.entries.map Prod.fst ∧
      (RecordHeaders.ofHeaders h).Pairwise fun a b => Text.toBytes a.1 < Text.toBytes b.1) ∧
    (∀ l : RecordHeaders, (RecordHeaders.ofHeaders l.toHeaders).toHeaders = l.toHeaders) ∧
    ∀ (d : Draft Bytes) (s : Supply) (p : Position),
      p.message (RecordHeaders.ofHeaders (d.build s).1.headers).toHeaders
          (some (d.build s).1.payload) =
        ⟨(d.build s).1.id, (d.build s).1.headers.carried, (d.build s).1.payload⟩ := by
  refine ⟨fun h => ⟨RecordHeaders.toHeaders_ofHeaders h, RecordHeaders.names_ofHeaders h, ?_⟩,
    fun l => ?_, fun d s p => ?_⟩
  · -- the names are those of the carried headers, which are in order
    have hordered : ((RecordHeaders.ofHeaders h).map Prod.fst).Pairwise (· < ·) := by
      rw [RecordHeaders.names_ofHeaders]
      exact List.pairwise_map.mpr h.carried.ordered
    exact (List.pairwise_map.mp hordered).imp Text.toBytes_lt
  · rw [RecordHeaders.toHeaders_ofHeaders,
      Headers.carried_of_texts (RecordHeaders.texts_toHeaders l)]
  · rw [RecordHeaders.toHeaders_ofHeaders]
    refine Position.message_eq ?_
    rw [Headers.find?_carried, Draft.build_eq d s]
    exact congrArg (Option.bind · Json.carried?) (Dict.find?_insert_self ..)

end Rendezvous
