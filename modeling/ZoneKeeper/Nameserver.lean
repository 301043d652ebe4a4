/-
A nameserver in memory.

It behaves as a real one does where runs can tell the difference: record sets are
replaced and deleted as wholes, a patch that names one record set twice is refused, a
patch that is accepted raises the serial by one, and everything that was asked for is
remembered.  Patches can be told to fail by their number, counted over all zones.
-/
import ZoneKeeper.Services
import ZoneKeeper.DomainName
import ZoneKeeper.Table

namespace ZoneKeeper

/-- A patch that the nameserver was asked for, accepted or not. -/
structure PatchCall where
  zone : String
  changes : List Change
deriving DecidableEq, Repr

/-- The state of a nameserver.  Zones are known by their relative names. -/
structure Nameserver where
  zones : Table String Snapshot
  /-- Every patch asked for, in order. -/
  patches : List PatchCall
  /-- Every zone created, with its kind. -/
  created : List (String × String)
  /-- The numbers of the patches that fail. -/
  failing : List Nat
deriving Repr

namespace Nameserver

/-- A nameserver without zones. -/
def empty : Nameserver := ⟨[], [], [], []⟩

/-- The zone, if there is one of this name. -/
def zone? (server : Nameserver) (zone : String) : Option Snapshot :=
  server.zones.lookup (DomainName.relative zone)

/-- The nameserver with a zone set, whatever it held before. -/
def insertZone (server : Nameserver) (zone : String) (serial : UInt32) (rrsets : List RRset) :
    Nameserver :=
  { server with
    zones := Table.put (DomainName.relative zone) ⟨DomainName.absolute zone, serial, rrsets⟩
      server.zones }

/-- The nameserver that will refuse a patch of this number, counted from zero. -/
def failPatch (server : Nameserver) (number : Nat) : Nameserver :=
  { server with failing := number :: server.failing }

/-- Where the failures of a zone's requests are located. -/
def endpoint (zone : String) : String :=
  "memory://zones/" ++ DomainName.absolute zone

/-- The failure for a zone that does not exist. -/
def notFound (zone : String) : ApiError :=
  .httpStatus (endpoint zone) 404 "Could not find domain"

/-- The first key that occurs again after an earlier occurrence. -/
def repeatedKey? : List RRsetKey → List RRsetKey → Option RRsetKey
  | _, [] => none
  | seen, key :: keys => if seen.contains key then some key else repeatedKey? (key :: seen) keys

/-- The record sets after one change.  A replacement without records is a deletion. -/
def applyChange (rrsets : List RRset) (change : Change) : List RRset :=
  let others := rrsets.filter fun rrset => rrset.key ≠ change.key
  if change.type = .replace ∧ change.rrset.records ≠ [] then others ++ [change.rrset] else others

/-- The zone after an accepted patch. -/
def patched (snapshot : Snapshot) (changes : List Change) : Snapshot :=
  { snapshot with
    serial := snapshot.serial + 1
    rrsets := changes.foldl applyChange snapshot.rrsets }

/-- The serial and the record sets of a zone. -/
def fetch (server : Nameserver) (zone : String) : Except ApiError Snapshot :=
  match server.zone? zone with
  | some snapshot => .ok snapshot
  | none => .error (notFound zone)

/-- What a patch leads to: the zone after it, or why it is refused. -/
def patchResult (server : Nameserver) (zone : String) (changes : List Change) :
    Except ApiError Snapshot :=
  if server.failing.contains server.patches.length then
    .error (.httpStatus (endpoint zone) 500 "injected failure")
  else
    match repeatedKey? [] (changes.map Change.key) with
    | some key =>
      .error (.httpStatus (endpoint zone) 422 s!"Duplicate RRset {key.name} IN {key.type}")
    | none => (server.fetch zone).map fun snapshot => patched snapshot changes

/-- Patches a zone.  The patch is remembered in any case. -/
def patch (server : Nameserver) (zone : String) (changes : List Change) :
    Except ApiError Unit × Nameserver :=
  let name := DomainName.relative zone
  let logged := { server with patches := server.patches ++ [⟨name, changes⟩] }
  match server.patchResult zone changes with
  | .ok snapshot => (.ok (), { logged with zones := Table.put name snapshot server.zones })
  | .error e => (.error e, logged)

/-- There is a zone of this name. -/
def hasZone (server : Nameserver) (zone : String) : Bool :=
  (server.zone? zone).isSome

/-- Creates an empty zone, unless there is one. -/
def create (server : Nameserver) (zone kind : String) : Except ApiError Unit × Nameserver :=
  if server.hasZone zone then
    let name := DomainName.absolute zone
    (.error (.httpStatus "memory://zones" 409 s!"Domain '{name}' already exists"), server)
  else
    (.ok (), { server.insertZone zone 1 [] with
      created := server.created ++ [(DomainName.relative zone, kind)] })

end Nameserver
end ZoneKeeper
