import SidelinkORe.Outcome
import SidelinkORe.KeyedSet
import SidelinkORe.ByteFormat
import SidelinkORe.SciF1a
import SidelinkORe.SfnSf
import SidelinkORe.ResourcePool
import SidelinkORe.RsrpScale
import SidelinkORe.Sensing
import SidelinkORe.Exclusion
import SidelinkORe.ThresholdLoop
import SidelinkORe.ExclusionContract
import SidelinkORe.TxOpportunities
import SidelinkORe.ReservationCoverage
import SidelinkORe.PacketReports
import SidelinkORe.ReportContract
import SidelinkORe.Grant
import SidelinkORe.Harq
import SidelinkORe.GrantUse
import SidelinkORe.Reselection
import SidelinkORe.SlotIndication
import SidelinkORe.SlotRun
import SidelinkORe.SlotFaults
import SidelinkORe.GrantConsistency
import SidelinkORe.HarqAccounting
import SidelinkORe.Rounds
import SidelinkORe.ReselectionCounter
import SidelinkORe.SlotSelection
import SidelinkORe.TextExchange
import SidelinkORe.Scheduler
import SidelinkORe.SchedulerAnswer
import SidelinkORe.SciProjection
import SidelinkORe.ProjectionAgreement
import SidelinkORe.RisingList
import SidelinkORe.SlotMapping
import SidelinkORe.PythonLoop
import SidelinkORe.SelectionFreshness
import SidelinkORe.GrantedSlots
import SidelinkORe.TextRoundTrip
import SidelinkORe.DoubleBooking
import SidelinkORe.ExpectedTb
import SidelinkORe.CounterAsserts
import SidelinkORe.SlotPreference
import SidelinkORe.KeptResources
import SidelinkORe.OddCompletion
import SidelinkORe.PoolBounds
import SidelinkORe.BlockError
import SidelinkORe.SensingWindow
import SidelinkORe.StableSort
import SidelinkORe.SettingsTable
import SidelinkORe.SideRanking
import SidelinkORe.SubChannelLoops
import SidelinkORe.SubChannelRuns
import SidelinkORe.WhileLoop
import SidelinkORe.EdgeSearch
import SidelinkORe.UeNumbering
import SidelinkORe.EstimatorLookup
import SidelinkORe.ZoneGeometry
import SidelinkORe.PscchCapture
import SidelinkORe.PscchCollision
import SidelinkORe.MixedRadix
import SidelinkORe.ParameterRows
import SidelinkORe.DecayingMean
import SidelinkORe.ExclusionChain
import SidelinkORe.ExclusionCounts
import SidelinkORe.CollisionTerm
import SidelinkORe.ExclusionInterpolation
import SidelinkORe.GammaSearch
import SidelinkORe.OReRatio
import SidelinkORe.DensityTable
import SidelinkORe.LinkThroughput
import SidelinkORe.BlankFilling
import SidelinkORe.HeldSignals
import SidelinkORe.Interference
import SidelinkORe.SlReception
import SidelinkORe.SinrOfReception
import SidelinkORe.PhysicalPool
import SidelinkORe.SciF2a
import SidelinkORe.SlotEncoding
import SidelinkORe.SlTransmission
import SidelinkORe.TransmissionRun
import SidelinkORe.PsschReception
import SidelinkORe.SoftCombining
import SidelinkORe.PsschMatching
import SidelinkORe.BufferAccounting
import SidelinkORe.BearerNetwork
import SidelinkORe.BearerOutcomes
