import LolaTransport.Proofs.Frame
import LolaTransport.Pull

/-!
# Two samples

`sampleA` and `sampleB` hold an empty payload published on the topics `a` and `b`, as
`writeFrameHeader` lays them out.  Each is read as a lease that matches its own topic only.
-/

namespace LolaTransport

/-- A sample of 64 bytes with an empty payload. -/
def plainSample (topic : plainUpRust.UUri) : List UInt8 :=
  ((writeFrameHeader plainUpRust .w64 (plainMetadata topic) 0 1 0).run (List.replicate 64 0)).2

def plainLease (topic : plainUpRust.UUri) : LolaRxLease plainUpRust :=
  ⟨plainMetadata topic, plainSample topic, 56, 0⟩

theorem readsAs_plainSample {topic : plainUpRust.UUri}
    (h : ((writeFrameHeader plainUpRust .w64 (plainMetadata topic) 0 1 0).run
      (List.replicate 64 0)).1 = .ok 56) :
    ReadsAs .w64 (plainSample topic) (plainMetadata topic) 56 [] :=
  readsAs_written plainUpRust_lawful h

theorem fromSample_plainSample {topic : plainUpRust.UUri}
    (h : ReadsAs .w64 (plainSample topic) (plainMetadata topic) 56 []) :
    LolaRxLease.fromSample plainUpRust .w64 (plainSample topic) = .ok (plainLease topic) := by
  obtain ⟨hread, hview⟩ := h
  rw [LolaRxLease.fromSample, hread]
  dsimp only [bind, Except.bind]
  rw [hview]
  rfl

def sampleA : List UInt8 := plainSample topicA

def sampleB : List UInt8 := plainSample topicB

def leaseA : LolaRxLease plainUpRust := plainLease topicA

def leaseB : LolaRxLease plainUpRust := plainLease topicB

theorem readsAs_sampleA : ReadsAs .w64 sampleA (plainMetadata topicA) 56 [] :=
  readsAs_plainSample (by decide +kernel)

theorem fromSample_sampleA : LolaRxLease.fromSample plainUpRust .w64 sampleA = .ok leaseA :=
  fromSample_plainSample readsAs_sampleA

theorem fromSample_sampleB : LolaRxLease.fromSample plainUpRust .w64 sampleB = .ok leaseB :=
  fromSample_plainSample (readsAs_plainSample (by decide +kernel))

/-- The filters of a receive for one topic. -/
def plainFilters (topic : plainUpRust.UUri) : Filters plainUpRust := ⟨topic, none⟩

def filtersA : Filters plainUpRust := plainFilters topicA

def filtersB : Filters plainUpRust := plainFilters topicB

theorem frameMatches_plain :
    frameMatches filtersA leaseA = true ∧ frameMatches filtersA leaseB = false ∧
      frameMatches filtersB leaseA = false ∧ frameMatches filtersB leaseB = true := by
  decide

def plainFrames : FrameCodec (Filters plainUpRust) (List UInt8) (LolaRxLease plainUpRust) :=
  lolaFrames plainUpRust .w64

/-- A configuration with the given bounds. -/
def plainConfig (maxSamples capacity : ℕ) (policy : LolaPullMismatchQueueFullPolicy) :
    LolaTransportConfig where
  localAuthority := "authority"
  instanceSpecifier := "instance"
  serviceType := "service"
  eventName := "event"
  sampleSize := 64
  sampleAlignment := 1
  maxSamples := maxSamples
  pullMismatchQueueCapacity := capacity
  pullMismatchQueueFullPolicy := policy

end LolaTransport
