import LatencyLog.Record

/-!
# Hops and topologies

A hop is one causal step of the pipeline: an event at its source leads to an event at its
destination. A topology is the list of hops to report on, in the order of the report.

The default topology follows an order through the exchange and the trading client: order server
read, matching engine, market data publisher and order server response, market data consumer and
order gateway, trade engine, order gateway write, and back to the exchange; and last the pair from
tick to trade.
-/

namespace LatencyLog

/-- A step from events with one tag to events with another. -/
structure Hop where
  source : String
  destination : String
deriving DecidableEq

namespace Hop

/-- The tag belongs to one of the two ends. -/
def selects (hop : Hop) (tag : String) : Bool :=
  decide (tag = hop.source) || decide (tag = hop.destination)

def name (hop : Hop) : String := hop.source ++ " -> " ++ hop.destination

end Hop

abbrev Topology := List Hop

/-- The pipeline of the exchange and the trading client. -/
def Topology.pipeline : Topology :=
  [⟨"T1_OrderServer_TCP_read", "T2_OrderServer_LFQueue_write"⟩,
    ⟨"T2_OrderServer_LFQueue_write", "T3_MatchingEngine_LFQueue_read"⟩,
    ⟨"T3_MatchingEngine_LFQueue_read", "T4_MatchingEngine_LFQueue_write"⟩,
    ⟨"T3_MatchingEngine_LFQueue_read", "T4t_MatchingEngine_LFQueue_write"⟩,
    ⟨"T4_MatchingEngine_LFQueue_write", "T5_MarketDataPublisher_LFQueue_read"⟩,
    ⟨"T4t_MatchingEngine_LFQueue_write", "T5t_OrderServer_LFQueue_read"⟩,
    ⟨"T5_MarketDataPublisher_LFQueue_read", "T6_MarketDataPublisher_UDP_write"⟩,
    ⟨"T5t_OrderServer_LFQueue_read", "T6t_OrderServer_TCP_write"⟩,
    ⟨"T7_MarketDataConsumer_UDP_read", "T8_MarketDataConsumer_LFQueue_write"⟩,
    ⟨"T7t_OrderGateway_TCP_read", "T8t_OrderGateway_LFQueue_write"⟩,
    ⟨"T6_MarketDataPublisher_UDP_write", "T7_MarketDataConsumer_UDP_read"⟩,
    ⟨"T6t_OrderServer_TCP_write", "T7t_OrderGateway_TCP_read"⟩,
    ⟨"T8_MarketDataConsumer_LFQueue_write", "T9_TradeEngine_LFQueue_read"⟩,
    ⟨"T8t_OrderGateway_LFQueue_write", "T9t_TradeEngine_LFQueue_read"⟩,
    ⟨"T9_TradeEngine_LFQueue_read", "T10_TradeEngine_LFQueue_write"⟩,
    ⟨"T9t_TradeEngine_LFQueue_read", "T10_TradeEngine_LFQueue_write"⟩,
    ⟨"T10_TradeEngine_LFQueue_write", "T11_OrderGateway_LFQueue_read"⟩,
    ⟨"T11_OrderGateway_LFQueue_read", "T12_OrderGateway_TCP_write"⟩,
    ⟨"T12_OrderGateway_TCP_write", "T1_OrderServer_TCP_read"⟩,
    ⟨"Ticker_Received", "Order_Sent"⟩]

end LatencyLog
