import SlrBooking.Theory.Prog
import SlrBooking.Theory.Relational
import SlrBooking.Theory.Triples
import SlrBooking.Theory.Fanout
import SlrBooking.Theory.Pool
import SlrBooking.Theory.Waiting
import SlrBooking.Theory.Solo
import SlrBooking.Theory.Rows
import SlrBooking.Theory.FirstLeast
import SlrBooking.Theory.Rounding
import SlrBooking.Theory.WeightedMean
import SlrBooking.Theory.Decimal
import SlrBooking.Theory.ReadCommitted
import SlrBooking.Theory.Parts
import SlrBooking.Theory.Intervals
import SlrBooking.Domain.Values
import SlrBooking.Domain.Stations
import SlrBooking.Domain.BookingSm
import SlrBooking.Domain.Calendar
import SlrBooking.Domain.Numerals
import SlrBooking.Domain.Timetable
import SlrBooking.Domain.TimeTexts
import SlrBooking.Domain.Packing
import SlrBooking.Domain.Standing
import SlrBooking.Domain.BestFit
import SlrBooking.Domain.Policy
import SlrBooking.Domain.Abuse
import SlrBooking.Domain.Fares
import SlrBooking.Domain.Segments
import SlrBooking.Ports
import SlrBooking.Usecases.Support
import SlrBooking.Usecases.Receipt
import SlrBooking.Usecases.Booking
import SlrBooking.Usecases.Counter
import SlrBooking.Usecases.Search
import SlrBooking.Usecases.Impact
import SlrBooking.Adapters.MemoryRepo
import SlrBooking.Runs.Calls
import SlrBooking.Runs.Outcomes
import SlrBooking.Runs.NoDoubleBooking
import SlrBooking.Runs.FailingCalls
import SlrBooking.Runs.Replay
import SlrBooking.Runs.Effects
import SlrBooking.Runs.SideBySide
import SlrBooking.Runs.LazyExpiry
import SlrBooking.Runs.Bystanders
import SlrBooking.Runs.TripIsolation
import SlrBooking.Runs.Verdicts
import SlrBooking.Runs.Velocity
import SlrBooking.Runs.AbuseGate
import SlrBooking.Runs.Impact
import SlrBooking.Runs.Offers
import SlrBooking.Runs.FreeSeats
import SlrBooking.Runs.HonouredOffers
import SlrBooking.Runs.StandingQueue
import SlrBooking.Runs.Reprints
import SlrBooking.Runs.Prices
import SlrBooking.Adapters.SqlRepo
import SlrBooking.App.TimetableConfig
import SlrBooking.App.SeatIds
import SlrBooking.App.Settings
import SlrBooking.App.Seed
import SlrBooking.Adapters.TripRows
import SlrBooking.Runs.DateSpellings
import SlrBooking.Runs.Agreement
import SlrBooking.Concurrent.RowOrder
import SlrBooking.Concurrent.Traffic
import SlrBooking.Concurrent.Tandem
import SlrBooking.Concurrent.Serial
import SlrBooking.Concurrent.Guards
import SlrBooking.Concurrent.StatusPaths
import SlrBooking.Concurrent.Announcements
import SlrBooking.Concurrent.Watching
import SlrBooking.Concurrent.Convergence
import SlrBooking.Concurrent.LiveStream
import SlrBooking.Concurrent.Trails
import SlrBooking.Concurrent.References
import SlrBooking.Concurrent.Ledger
import SlrBooking.Concurrent.Ceilings
import SlrBooking.Concurrent.Deadlock
import SlrBooking.Concurrent.Apart
import SlrBooking.Http.Idempotency
import SlrBooking.Http.Duplicates
import SlrBooking.Http.Routes
import SlrBooking.Http.NotFound
import SlrBooking.Http.CounterKey
import SlrBooking.Web.ApiClient
import SlrBooking.Web.Checkout
import SlrBooking.Web.HoldReplays
import SlrBooking.Web.GroupPayment
import SlrBooking.Web.Flow
import SlrBooking.Web.Wizard
import SlrBooking.Web.ShownTotal
import SlrBooking.Web.SeatMap
import SlrBooking.Web.Companions
